import Thesaurus.Project.Command
import Thesaurus.Proofs.Files.Tree
import Thesaurus.Proofs.Json.Reading
import Thesaurus.Proofs.Json.Records
import Thesaurus.Proofs.Registry.Replacement

/-!
# Settings read back

The document of settings holds all of them: whatever texts, numbers and relation types
there are, reading the document gives the same settings, and therefore the same
registry, or the same reason why there is none. Saving them and loading them goes
through a file, and new relation types go through a command that saves what it replaced.

## Main results

* `Settings.ofText_text`: the document is read back.
* `Settings.load_of_save`: the same on files.
* `Command.run_applyTypes_eq_ok`: what a replacement of the types comes from.
* `settings_read_back`: documents, files and replaced types.
-/

namespace Thesaurus

open Json

namespace Settings

variable {s : Settings} {root path : String} {t t' : FileTree}

/-! ## The document -/

theorem isNatural_optionalString (text : Option String) :
    (Value.optionalString text).IsNatural := by
  cases text with
  | none => exact .null
  | some s => exact .string s

theorem isNatural_relationType (type : RelationType) : type.toJson.IsNatural := by
  refine .object fun f hf => ?_
  simp only [List.mem_cons, List.not_mem_nil, or_false] at hf
  rcases hf with rfl | rfl | rfl | rfl | rfl | rfl | rfl | rfl | rfl | rfl | rfl
  all_goals first
    | exact .string _
    | exact .bool _
    | exact isNatural_optionalString _

theorem le_maxUnsigned (n : UInt64) : n.toNat ≤ maxUnsigned := by
  have hsize : UInt64.size = 2 ^ 64 := rfl
  have hlt := n.toNat_lt
  unfold maxUnsigned
  omega

theorem isNatural_toJson (s : Settings) : s.toJson.IsNatural := by
  refine .object fun f hf => ?_
  simp only [List.mem_cons, List.not_mem_nil, or_false] at hf
  rcases hf with rfl | rfl | rfl | rfl | rfl | rfl | rfl
  · exact .string _
  · exact .string _
  · exact .nat (le_maxUnsigned _)
  · exact .nat (le_maxUnsigned _)
  · exact .string _
  · exact .string _
  · refine .array fun v hv => ?_
    obtain ⟨type, -, rfl⟩ := List.mem_map.1 hv
    exact isNatural_relationType type

/-- Settings are read back from the tree of their document. -/
theorem decode_toJson (s : Settings) :
    decoder.decode (.text maxDepth) s.toJson.toTree = .ok s := by
  have htypes : (Decoder.list RelationType.decoder).decode (.text 126)
      (Value.array (s.types.map RelationType.toJson)).toTree = .ok s.types :=
    decode_list rfl s.types fun type _ => RelationType.decode_toJson rfl type
  have hread : decoder.decode (.text maxDepth) s.toJson.toTree =
      .ok { s with timeout := .ofNat s.timeout.toNat, maxNodes := .ofNat s.maxNodes.toNat } :=
    decode_record (by decide) rfl <| .cons (Field.read_of rfl) <| .cons (Field.read_of rfl) <|
      .cons (Field.read_of rfl) <| .cons (Field.read_of rfl) <| .cons (Field.read_of rfl) <|
      .cons (Field.read_of rfl) <| .cons (Field.read_of htypes) <| .nil _
  rw [UInt64.ofNat_toNat, UInt64.ofNat_toNat] at hread
  exact hread

/-- The document of settings is read back. -/
theorem ofText_text (s : Settings) : ofText s.text = .ok s := by
  rw [ofText, text, ofText_pretty decoder s.isNatural_toJson, decode_toJson]
  rfl

/-! ## Files -/

/-- The settings of a file are read from its text, and no file changes. -/
theorem load_run (path : String) (t : FileTree) :
    (load (m := StateM FileTree) path).run t = ((t.textAt path).mapError .file >>= ofText, t) := by
  have hread : (ExceptT.adapt SettingsError.file
      (FileSystem.read path : ExceptT FileError (StateM FileTree) String)).run t =
        ((t.textAt path).mapError .file, t) := rfl
  unfold load
  rw [run_bind, hread]
  cases t.textAt path with
  | error error => rfl
  | ok text => rfl

/-- The settings of a project are those of its document if it has one. -/
theorem loadOrDefault_run (root : String) (t : FileTree) :
    (loadOrDefault (m := StateM FileTree) root).run t =
      (if (t.lookUp (pathOf root)).isOk then (t.textAt (pathOf root)).mapError .file >>= ofText
        else .ok {}, t) := by
  have hpresent : (ExceptT.lift (FileSystem.isPresent (pathOf root) : StateM FileTree Bool) :
      ExceptT SettingsError (StateM FileTree) Bool).run t =
        (.ok (t.lookUp (pathOf root)).isOk, t) := rfl
  have hrun : (loadOrDefault (m := StateM FileTree) root).run t =
      (if (t.lookUp (pathOf root)).isOk then load (pathOf root) else pure {} :
        ExceptT SettingsError (StateM FileTree) Settings).run t := run_bind_ok hpresent
  rw [hrun]
  by_cases h : (t.lookUp (pathOf root)).isOk = true
  · rw [if_pos h, if_pos h, load_run]
  · rw [if_neg h, if_neg h, run_pure]

/-- What is saved is written to the document of the project. -/
theorem withFile_of_save (h : (s.save (m := StateM FileTree) root).run t = (.ok (), t')) :
    ∃ t₁ : FileTree, t₁.withFile (pathOf root) s.text = .ok t' := by
  obtain ⟨_, t₁, -, hwrite⟩ := run_bind_eq_ok_iff.1 (run_adapt_eq_ok_iff.1 h)
  exact ⟨t₁, FileTree.withFile_of_write hwrite⟩

/-- What was saved is loaded. -/
theorem load_of_save (h : (s.save (m := StateM FileTree) root).run t = (.ok (), t')) :
    (load (m := StateM FileTree) (pathOf root)).run t' = (.ok s, t') := by
  obtain ⟨t₁, hwritten⟩ := withFile_of_save h
  have hread : (t'.textAt (pathOf root)).mapError SettingsError.file = .ok s.text :=
    mapError_eq_ok_iff.2 (FileTree.textAt_withFile hwritten)
  rw [load_run]
  exact Prod.ext (bind_eq_ok_iff.2 ⟨s.text, hread, s.ofText_text⟩) rfl

/-- A project has the settings that were saved. -/
theorem loadOrDefault_of_save (h : (s.save (m := StateM FileTree) root).run t = (.ok (), t')) :
    (loadOrDefault (m := StateM FileTree) root).run t' = (.ok s, t') := by
  obtain ⟨t₁, hwritten⟩ := withFile_of_save h
  have hpresent : (t'.lookUp (pathOf root)).isOk = true := by
    rw [FileTree.lookUp_withFile hwritten]
    rfl
  rw [loadOrDefault_run, if_pos hpresent, ← load_run]
  exact load_of_save h

/-- The settings with the types of a registry describe that registry. -/
theorem registry_withRegistry (s : Settings) (r : Registry) :
    (s.withRegistry r).registry = .ok r :=
  mapError_eq_ok_iff.2 r.ofTypes_types

end Settings

/-! ## Replaced types -/

section Replacing

variable {root file shown : String} {ws : Workspace} {t t' : FileTree}

/-- The registry of an opened project is the one that its settings describe. -/
theorem Workspace.of_load (h : (load (m := StateM FileTree) root).run t = (.ok ws, t')) :
    ws.root = root ∧ ws.settings.registry = .ok ws.registry := by
  obtain ⟨settings, t₁, -, hrest⟩ := run_bind_eq_ok_iff.1 h
  obtain ⟨registry, t₂, hregistry, hrest⟩ := run_bind_eq_ok_iff.1 hrest
  obtain ⟨store, t₃, -, hws⟩ := run_bind_eq_ok_iff.1 hrest
  rw [run_pure] at hws
  cases hws
  exact ⟨rfl, mapError_eq_ok_iff.1 (congrArg Prod.fst hregistry)⟩

/-- Types are replaced by those of a document that was read after the project was
opened, and the settings with the new registry are saved. -/
theorem Command.run_applyTypes_eq_ok
    (h : (run (m := StateM FileTree) root (.applyTypes file)).run t = (.ok shown, t')) :
    ∃ (ws : Workspace) (t₁ : FileTree) (text : String) (document : TypesDocument)
        (registry : Registry),
      (Workspace.load (m := StateM FileTree) root).run t = (.ok ws, t₁) ∧
        t₁.textAt file = .ok text ∧ Json.ofText TypesDocument.decoder text = .ok document ∧
          Registry.ofTypes document.types (document.defaultType.getD ws.registry.defaultName) =
            .ok registry ∧
          ((ws.settings.withRegistry registry).save (m := StateM FileTree) ws.root).run t₁ =
            (.ok (), t') := by
  obtain ⟨ws, t₁, hload, hrest⟩ := run_bind_eq_ok_iff.1 h
  obtain ⟨text, _, hread, hrest⟩ := run_bind_eq_ok_iff.1 hrest
  replace hread : (t₁.textAt file, t₁) = (.ok text, _) := run_adapt_eq_ok_iff.1 hread
  obtain ⟨htext, rfl⟩ := Prod.mk.inj hread
  obtain ⟨document, _, hread, hrest⟩ := run_bind_eq_ok_iff.1 hrest
  obtain ⟨hdocument, rfl⟩ := Prod.mk.inj hread
  obtain ⟨registry, _, hask, hrest⟩ := run_bind_eq_ok_iff.1 hrest
  obtain ⟨hreplaced, rfl⟩ := Prod.mk.inj hask
  obtain ⟨_, t₂, hsave, hshown⟩ := run_bind_eq_ok_iff.1 hrest
  obtain ⟨-, rfl⟩ := Prod.mk.inj hshown
  replace hreplaced := run_of_result (mapError_eq_ok_iff.1 hreplaced)
  exact ⟨ws, t₁, text, document, registry, hload, htext, mapError_eq_ok_iff.1 hdocument,
    Registry.ofTypes_of_replaceOver hreplaced, run_adapt_eq_ok_iff.1 hsave⟩

end Replacing

/-- Reading the document of settings gives the settings, whatever they are, so there is
the same registry or the same reason why there is none. A project has the settings that
were saved last. After its types were replaced it has the types of the document that
replaced them, in their order, the default type of the document or else the former one,
and the rest of its settings as before. -/
theorem settings_read_back :
    (∀ s : Settings, Settings.ofText s.text = .ok s ∧
      (Settings.ofText s.text >>= Settings.registry) = s.registry) ∧
    (∀ (s : Settings) (root : String) (t t' : FileTree),
      (s.save (m := StateM FileTree) root).run t = (.ok (), t') →
        (Settings.load (m := StateM FileTree) (Settings.pathOf root)).run t' = (.ok s, t') ∧
          (Settings.loadOrDefault (m := StateM FileTree) root).run t' = (.ok s, t')) ∧
    ∀ (root file shown : String) (t t' : FileTree),
      (Command.run (m := StateM FileTree) root (.applyTypes file)).run t = (.ok shown, t') →
        ∃ (ws : Workspace) (t₁ : FileTree) (text : String) (document : TypesDocument)
            (registry : Registry),
          (Workspace.load (m := StateM FileTree) root).run t = (.ok ws, t₁) ∧
            t₁.textAt file = .ok text ∧ Json.ofText TypesDocument.decoder text = .ok document ∧
            registry.types = document.types ∧
            registry.defaultName = document.defaultType.getD ws.settings.defaultType ∧
            (Settings.loadOrDefault (m := StateM FileTree) root).run t' =
              (.ok (ws.settings.withRegistry registry), t') ∧
            (ws.settings.withRegistry registry).registry = .ok registry := by
  refine ⟨fun s => ?_, fun s root t t' h => ?_, fun root file shown t t' h => ?_⟩
  · have htext := s.ofText_text
    exact ⟨htext, by rw [htext]; rfl⟩
  · exact ⟨Settings.load_of_save h, Settings.loadOrDefault_of_save h⟩
  · obtain ⟨ws, t₁, text, document, registry, hload, htext, hdocument, hregistry, hsave⟩ :=
      Command.run_applyTypes_eq_ok h
    obtain ⟨hroot, hbefore⟩ := Workspace.of_load hload
    rw [hroot] at hsave
    have hdefault : ws.registry.defaultName = ws.settings.defaultType :=
      Registry.defaultName_of_ofTypes (mapError_eq_ok_iff.1 hbefore)
    rw [hdefault] at hregistry
    exact ⟨ws, t₁, text, document, registry, hload, htext, hdocument,
      Registry.types_of_ofTypes hregistry, Registry.defaultName_of_ofTypes hregistry,
      Settings.loadOrDefault_of_save hsave, ws.settings.registry_withRegistry registry⟩

/-- A document that leaves nothing but links to read alongside. -/
def seeAlsoDocument : String :=
  "\x7b\"defaultRelationType\": \"seeAlso\", \"relationTypes\": [\x7b\"name\": \"seeAlso\"," ++
    "\"displayName\": \"See Also\", \"category\": \"associative\", \"color\": \"#667085\"\x7d]\x7d"

/-- A working folder with that document. -/
def seeAlsoFolder : FileTree where
  entries := Table.empty.insert "/types.json" (.file seeAlsoDocument)

/-- In that folder the settings that every project starts with can be saved, and the
document replaces their types. -/
theorem seeAlso_read_back :
    (∃ begun : FileTree,
      (Settings.save (m := StateM FileTree) {} "").run seeAlsoFolder = (.ok (), begun) ∧
        (Settings.loadOrDefault (m := StateM FileTree) "").run begun = (.ok {}, begun)) ∧
    ∃ (shown : String) (replaced : FileTree) (s : Settings),
      (Command.run (m := StateM FileTree) "" (.applyTypes "types.json")).run seeAlsoFolder =
          (.ok shown, replaced) ∧
        (Settings.loadOrDefault (m := StateM FileTree) "").run replaced = (.ok s, replaced) ∧
        s.types.map (·.name) = ["seeAlso"] ∧ s.defaultType = "seeAlso" := by
  obtain ⟨-, hsaved, hreplaced⟩ := settings_read_back
  constructor
  · obtain ⟨begun, hsave⟩ : ∃ begun,
        (Settings.save (m := StateM FileTree) {} "").run seeAlsoFolder = (.ok (), begun) :=
      ⟨_, rfl⟩
    exact ⟨begun, hsave, (hsaved {} "" seeAlsoFolder begun hsave).2⟩
  · have happlied : ((Command.run (m := StateM FileTree) "" (.applyTypes "types.json")).run
        seeAlsoFolder).1.toOption.isSome = true := by
      decide +kernel
    have hfile : ((Workspace.load (m := StateM FileTree) "").run seeAlsoFolder).2.textAt
        "types.json" = .ok seeAlsoDocument := by
      decide +kernel
    have hdocument : (Json.ofText TypesDocument.decoder seeAlsoDocument).toOption.map
        (fun d => (d.types.map (·.name), d.defaultType)) = some (["seeAlso"], some "seeAlso") := by
      decide +kernel
    rcases hrun : (Command.run (m := StateM FileTree) "" (.applyTypes "types.json")).run
      seeAlsoFolder with ⟨_ | shown, replaced⟩
    · rw [hrun] at happlied
      cases happlied
    · obtain ⟨ws, t₁, text, document, registry, hload, htext, hread, htypes, hdefault, hnext, -⟩ :=
        hreplaced "" "types.json" shown seeAlsoFolder replaced hrun
      rw [hload, htext] at hfile
      obtain rfl := Except.ok.inj hfile
      rw [hread] at hdocument
      obtain ⟨hnames, hgiven⟩ := Prod.mk.inj (Option.some.inj hdocument)
      refine ⟨shown, replaced, _, rfl, hnext, ?_, ?_⟩
      · exact (congrArg (List.map (·.name)) htypes).trans hnames
      · exact hdefault.trans (congrArg (Option.getD · _) hgiven)

end Thesaurus
