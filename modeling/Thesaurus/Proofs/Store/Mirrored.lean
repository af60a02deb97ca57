import Thesaurus.Proofs.Store.Agreement
import Thesaurus.Proofs.Store.Directory
import Thesaurus.Proofs.Store.Indexes

/-!
# The indexed graph and the term graph

The term graph of the store in memory keeps no table of identities and no listings. It
looks through its nodes, and remembers for each when it came to its glossary. Fed with the
same calls, it holds the same nodes, names and edges as the graph with indexes, and gives
the same answers: the order in which nodes came to a glossary is the order in which the
glossary lists them, and sorting by name keeps it where names are equal.

## Main definitions

* `GraphCall.write`: a call as a write to a store.
* `IndexedGraph.Mirrors`: the two graphs hold the same.
* `IndexedGraph.AnswersLike`: the two graphs answer alike.

## Main results

* `IndexedGraph.Mirrors.runCalls`: calls keep the two graphs alike.
* `indexes_kept`: what the indexes say after any calls.
-/

namespace Thesaurus

/-! ## Sorting by name -/

namespace TermGraph

variable {nodes : List Node}

/-- The order of nodes by name alone. -/
def nameLe (m n : Node) : Bool := decide (m.term.fullName ≤ n.term.fullName)

theorem nameLe_trans {l m n : Node} (hlm : nameLe l m = true) (hmn : nameLe m n = true) :
    nameLe l n = true :=
  decide_eq_true (String.le_trans (of_decide_eq_true hlm) (of_decide_eq_true hmn))

theorem nameLe_total (m n : Node) : (nameLe m n || nameLe n m) = true := by
  simpa [nameLe] using String.le_total m.term.fullName n.term.fullName

theorem memberLe_iff {m n : Node} : memberLe m n = true ↔
    m.term.fullName < n.term.fullName ∨
      m.term.fullName = n.term.fullName ∧ m.joined ≤ n.joined := by
  unfold memberLe
  by_cases hname : m.term.fullName = n.term.fullName
  · simp [hname]
  · simp [hname]

theorem memberLe_trans {l m n : Node} (hlm : memberLe l m = true) (hmn : memberLe m n = true) :
    memberLe l n = true := by
  rw [memberLe_iff] at hlm hmn ⊢
  rcases hlm with hlm | ⟨hlm, hjoined⟩
  · rcases hmn with hmn | ⟨hmn, -⟩
    · exact .inl (String.lt_trans hlm hmn)
    · exact .inl (hmn ▸ hlm)
  · rcases hmn with hmn | ⟨hmn, hjoined'⟩
    · exact .inl (hlm ▸ hmn)
    · exact .inr ⟨hlm.trans hmn, Nat.le_trans hjoined hjoined'⟩

theorem memberLe_total (m n : Node) : (memberLe m n || memberLe n m) = true := by
  rw [Bool.or_eq_true, memberLe_iff, memberLe_iff]
  rcases Edge.lt_or_eq_or_gt_text m.term.fullName n.term.fullName with hlt | heq | hgt
  · exact .inl (.inl hlt)
  · rcases Nat.le_total m.joined n.joined with hle | hle
    · exact .inl (.inr ⟨heq, hle⟩)
    · exact .inr (.inr ⟨heq.symm, hle⟩)
  · exact .inr (.inl hgt)

/-- Sorting by name keeps the order of nodes with one name. -/
theorem filter_mergeSort_nameLe (nodes : List Node) (name : String) :
    (nodes.mergeSort nameLe).filter (·.term.fullName = name) =
      nodes.filter (·.term.fullName = name) := by
  have hkept : (nodes.filter (·.term.fullName = name)).Sublist (nodes.mergeSort nameLe) := by
    refine List.sublist_mergeSort ?_ nameLe_total ?_ List.filter_sublist
    · exact fun _ _ _ => nameLe_trans
    refine List.pairwise_of_forall_mem_list fun m hm n hn => ?_
    simp only [List.mem_filter, decide_eq_true_eq] at hm hn
    rw [nameLe, hm.2, hn.2]
    exact decide_eq_true (String.le_refl name)
  have hfiltered := hkept.filter (·.term.fullName = name)
  rw [List.filter_filter] at hfiltered
  simp only [Bool.and_self] at hfiltered
  refine (hfiltered.eq_of_length ?_).symm
  exact ((List.mergeSort_perm _ _).filter _).length_eq.symm

/-- Nodes that stand in the order of their joining are sorted by name as they are by name
and joining, wherever they stand then. -/
theorem mergeSort_nameLe_eq {nodes' : List Node}
    (hnodes : nodes.Pairwise fun m n => m.joined < n.joined) (hperm : nodes.Perm nodes') :
    nodes.mergeSort nameLe = nodes'.mergeSort memberLe := by
  have hsorted : (nodes.mergeSort nameLe).Perm (nodes'.mergeSort memberLe) :=
    (List.mergeSort_perm _ _).trans (hperm.trans (List.mergeSort_perm _ _).symm)
  have hnames : (nodes.mergeSort nameLe).Pairwise fun m n => nameLe m n = true := by
    refine List.pairwise_mergeSort ?_ nameLe_total nodes
    exact fun _ _ _ => nameLe_trans
  have hmembers : (nodes'.mergeSort memberLe).Pairwise fun m n => memberLe m n = true := by
    refine List.pairwise_mergeSort ?_ memberLe_total nodes'
    exact fun _ _ _ => memberLe_trans
  refine hsorted.eq_of_pairwise ?_ ?_ hmembers
  · intro m n hm hn hmn hnm
    have hjoins : (nodes.map (·.joined)).Nodup :=
      List.pairwise_map.2 (hnodes.imp fun hlt => Nat.ne_of_lt hlt)
    refine List.inj_on_of_nodup_map hjoins (List.mem_mergeSort.1 hm)
      (hperm.mem_iff.2 (List.mem_mergeSort.1 hn)) ?_
    rw [memberLe_iff] at hmn hnm
    rcases hmn with hmn | ⟨heq, hle⟩
    · rcases hnm with hnm | ⟨heq, -⟩
      · exact absurd (String.lt_trans hmn hnm) (String.lt_irrefl _)
      · exact absurd (heq ▸ hmn) (String.lt_irrefl _)
    · have hge := (hnm.resolve_left (heq ▸ String.lt_irrefl _)).2
      omega
  · -- Nodes of one name keep the order that they had, and that is the order of joining.
    refine List.pairwise_iff_forall_sublist.2 fun {m n} hpair => ?_
    have hname : nameLe m n = true := List.pairwise_iff_forall_sublist.1 hnames hpair
    rw [memberLe_iff]
    rcases Edge.lt_or_eq_or_gt_text m.term.fullName n.term.fullName with hlt | heq | hgt
    · exact .inl hlt
    · have hsame : [m, n].Sublist (nodes.filter (·.term.fullName = n.term.fullName)) := by
        rw [← filter_mergeSort_nameLe]
        simpa [heq] using hpair.filter (·.term.fullName = n.term.fullName)
      have hjoined := List.pairwise_iff_forall_sublist.1 (hnodes.filter _) hsame
      exact .inr ⟨heq, Nat.le_of_lt hjoined⟩
    · exact absurd hgt (String.not_lt.2 (of_decide_eq_true hname))

/-! ## Nodes by index -/

/-- When a node came to its glossary. -/
def joinedAt (g : TermGraph) (index : Nat) : Nat :=
  (fieldAt Node.joined g.nodes index).getD 0

variable {g : TermGraph}

/-- Changing the only node of an identity puts another one in its place. -/
theorem nodes_updateNode {id : TermId} {k : Nat} {n : Node} (hn : g.nodes[k]? = some n)
    (hid : n.term.id = id)
    (honly : ∀ (j : Nat) m, g.nodes[j]? = some m → m.term.id = id → j = k) (f : Node → Node) :
    (g.updateNode id f).nodes = g.nodes.set k (f n) := by
  have hlt := (List.getElem?_eq_some_iff.1 hn).1
  refine List.ext_getElem? fun j => ?_
  rw [updateNode, List.getElem?_map, List.getElem?_set]
  by_cases hj : k = j
  · subst hj
    rw [if_pos rfl, if_pos hlt, hn, Option.map_some, if_pos hid]
  · rw [if_neg hj]
    cases hm : g.nodes[j]? with
    | none => rfl
    | some m =>
        have hother : m.term.id ≠ id := fun heq => hj (honly j m hm heq).symm
        rw [Option.map_some, if_neg hother]

/-- A term that is written over a former one keeps the node, and the time of joining too
unless the glossary changes. -/
theorem addTerm_known {previous t : Term} (hprevious : g.term? t.id = some previous) :
    (g.addTerm t).nodes = (g.updateNode t.id fun n =>
        { term := t, joined :=
            if previous.glossary = t.glossary then n.joined else g.nextJoin }).nodes ∧
      (g.addTerm t).nextJoin =
        if previous.glossary = t.glossary then g.nextJoin else g.nextJoin + 1 := by
  unfold addTerm
  rw [hprevious]
  by_cases hglossary : previous.glossary = t.glossary
  · by_cases hname : previous.fullName = t.fullName
    · simp [hglossary, hname, updateNode]
    · simp [hglossary, hname, updateNode]
  · by_cases hname : previous.fullName = t.fullName
    · simp [hglossary, hname, updateNode]
    · simp [hglossary, hname, updateNode]

/-- Marking a term is adding it with the mark. -/
theorem addTerm_asDeleted {t : Term} (ht : g.term? t.id = some t)
    (honly : ∀ n ∈ g.nodes, n.term.id = t.id → n.term = t) :
    g.addTerm t.asDeleted =
      g.updateNode t.id fun n => { n with term := n.term.asDeleted } := by
  have hadd : g.addTerm t.asDeleted = g.updateNode t.id fun n => { n with term := t.asDeleted } := by
    unfold addTerm
    rw [show g.term? t.asDeleted.id = some t from ht]
    simp only [Term.asDeleted, if_true]
  rw [hadd]
  unfold updateNode
  congr 1
  refine List.map_congr_left fun n hn => ?_
  by_cases hid : n.term.id = t.id
  · rw [if_pos hid, if_pos hid]
    show Node.mk t.asDeleted n.joined = Node.mk n.term.asDeleted n.joined
    rw [honly n hn hid]
  · rw [if_neg hid, if_neg hid]

theorem addTerm_new {t : Term} (hnew : g.term? t.id = none) :
    (g.addTerm t).nodes = g.nodes ++ [{ term := t, joined := g.nextJoin }] ∧
      (g.addTerm t).nextJoin = g.nextJoin + 1 := by
  unfold addTerm
  rw [hnew]
  exact ⟨rfl, rfl⟩

theorem joinedAt_concat {g' : TermGraph} {n : Node} (h : g'.nodes = g.nodes ++ [n]) :
    g'.joinedAt = Function.update g.joinedAt g.nodes.length n.joined := by
  funext k
  rw [joinedAt, h, fieldAt_concat]
  by_cases hk : k = g.nodes.length
  · subst hk
    rw [Function.update_self, Function.update_self, Option.getD_some]
  · rw [Function.update_of_ne hk, Function.update_of_ne hk, joinedAt]

theorem joinedAt_set {g' : TermGraph} {k : Nat} {n : Node} (hk : k < g.nodes.length)
    (h : g'.nodes = g.nodes.set k n) : g'.joinedAt = Function.update g.joinedAt k n.joined := by
  funext j
  rw [joinedAt, h, fieldAt_set _ hk]
  by_cases hj : j = k
  · subst hj
    rw [Function.update_self, Function.update_self, Option.getD_some]
  · rw [Function.update_of_ne hj, Function.update_of_ne hj, joinedAt]

end TermGraph

/-! ## Two graphs -/

/-- The call as a write to a store. -/
def GraphCall.write : GraphCall → Write
  | .addGlossary glossary => .edit (.putGlossary glossary)
  | .addTerm t => .edit (.putTerm t)
  | .markDeleted id => .edit (.deleteTerm id)
  | .addEdge e => .addEdge e
  | .removeEdge e => .removeEdge e

namespace IndexedGraph

variable {g : IndexedGraph} {h : TermGraph}

/-- The two graphs hold the same: the same terms at the same indexes, the same names and
glossaries, the same edges, and nodes are listed as they came. -/
structure Mirrors (g : IndexedGraph) (h : TermGraph) : Prop where
  nodes : h.nodes.map (·.term) = g.nodes
  names : ∀ name, h.names.get? name = (g.names.get? name).bind g.idAt
  glossaries : h.glossaries = g.glossaries
  edges : h.edges.Perm g.edges
  ranked : g.listings.Ranked h.joinedAt
  joined : ∀ n ∈ h.nodes, n.joined < h.nextJoin

theorem mirrors_empty : Mirrors empty .empty where
  nodes := rfl
  names _ := rfl
  glossaries := rfl
  edges := .refl _
  ranked _ := List.Pairwise.nil
  joined _ hn := absurd hn List.not_mem_nil

/-- Edges go by the identities of nodes, so they stay if the identities do. -/
theorem edges_congr {g' : IndexedGraph} (hg : g.Consistent) (harcs : g'.arcs = g.arcs)
    (hids : ∀ k < g.nodes.length, g'.idAt k = g.idAt k) : g'.edges = g.edges := by
  unfold edges
  rw [harcs]
  refine List.filterMap_congr fun a ha => Option.ext fun e => ?_
  obtain ⟨hsource, htarget⟩ := hg.ends a ha
  rw [edge?_eq_some, edge?_eq_some, hids _ hsource, hids _ htarget]

namespace Mirrors

variable {id : TermId}

theorem exists_node (hm : Mirrors g h) {k : Nat} {t : Term} (ht : g.nodes[k]? = some t) :
    ∃ n, h.nodes[k]? = some n ∧ n.term = t := by
  rw [← hm.nodes, List.getElem?_map] at ht
  exact Option.map_eq_some_iff.1 ht

theorem getElem?_nodes (hm : Mirrors g h) {k : Nat} {n : Node} (hn : h.nodes[k]? = some n) :
    g.nodes[k]? = some n.term := by
  rw [← hm.nodes, List.getElem?_map, hn, Option.map_some]

/-- Looking for the node of an identity finds the node that the index leads to. -/
theorem term?_eq (hm : Mirrors g h) (hg : g.Consistent) (id : TermId) :
    h.term? id = g.term? id := by
  have hfind : h.term? id = g.nodes.find? (·.id == id) := by
    rw [TermGraph.term?, TermGraph.node?, ← hm.nodes, List.find?_map]
    rfl
  refine Option.ext fun t => ?_
  rw [hfind, hg.term?_eq_some_iff]
  constructor
  · intro ht
    obtain ⟨k, hk⟩ := List.mem_iff_getElem?.1 (List.mem_of_find?_eq_some ht)
    exact ⟨k, hk, by simpa using List.find?_some ht⟩
  · rintro ⟨k, hk, rfl⟩
    have hsome : (g.nodes.find? (·.id == t.id)).isSome = true :=
      List.find?_isSome.2 ⟨t, List.mem_of_getElem? hk, beq_self_eq_true _⟩
    obtain ⟨u, hu⟩ := Option.isSome_iff_exists.1 hsome
    obtain ⟨j, hj⟩ := List.mem_iff_getElem?.1 (List.mem_of_find?_eq_some hu)
    have hid : u.id = t.id := by simpa using List.find?_some hu
    obtain rfl := hg.eq_of_id_eq hj hk hid
    rw [hu, ← hj, hk]

theorem knows_eq (hm : Mirrors g h) (hg : g.Consistent) (id : TermId) :
    h.knows id = (g.index? id).isSome := by
  have hterm : h.knows id = (g.term? id).isSome := by
    rw [← hm.term?_eq hg, TermGraph.term?, Option.isSome_map]
    rfl
  rw [hterm]
  cases hindex : g.index? id with
  | none => simp [term?, hindex]
  | some k =>
      obtain ⟨t, ht, -⟩ := hg.exists_node hindex
      simp [term?, hindex, ht]

/-- Nodes came to their glossaries before now. -/
theorem joinedAt_lt (hm : Mirrors g h) (hg : g.Consistent) {glossary : GlossaryId} {k : Nat}
    (hk : k ∈ g.listings.under glossary) : h.joinedAt k < h.nextJoin := by
  obtain ⟨t, ht, -⟩ := Option.map_eq_some_iff.1 (hg.listings.mem_iff.1 hk)
  obtain ⟨n, hn, -⟩ := hm.exists_node ht
  rw [TermGraph.joinedAt, fieldAt, hn]
  exact hm.joined n (List.mem_of_getElem? hn)

/-! ### Writing terms -/

theorem appendTerm (hm : Mirrors g h) (hg : g.Consistent) {t : Term}
    (hnew : g.index? t.id = none) : Mirrors (g.appendTerm t) (h.addTerm t) := by
  have hterm : h.term? t.id = none := by
    rw [hm.term?_eq hg, IndexedGraph.term?, hnew, Option.bind_none]
  have hlength : h.nodes.length = g.nodes.length := by rw [← hm.nodes, List.length_map]
  have hids : (g.appendTerm t).idAt = Function.update g.idAt g.nodes.length (some t.id) :=
    fieldAt_concat _ _ _
  obtain ⟨hnodes, hnext⟩ := TermGraph.addTerm_new hterm
  refine ⟨?_, fun name => ?_, ?_, ?_, ?_, fun n hn => ?_⟩
  · rw [hnodes, List.map_append, hm.nodes]
    rfl
  · have hkept : (g.names.get? name).bind (g.appendTerm t).idAt =
        (g.names.get? name).bind g.idAt := by
      refine Option.bind_congr fun k hk => ?_
      rw [hids, Function.update_of_ne (Nat.ne_of_lt (hg.names name k hk))]
    rw [TermGraph.names_addTerm, hterm]
    show (h.names.insert t.fullName t.id).get? name =
      ((g.names.insert t.fullName g.nodes.length).get? name).bind (g.appendTerm t).idAt
    rw [Table.get?_insert, Table.get?_insert]
    by_cases hname : name = t.fullName
    · rw [if_pos hname, if_pos hname, Option.bind_some, hids, Function.update_self]
    · rw [if_neg hname, if_neg hname, hkept, hm.names]
  · rw [TermGraph.glossaries_addTerm]
    exact hm.glossaries
  · have hedges : (g.appendTerm t).edges = g.edges := by
      refine edges_congr hg rfl fun k hk => ?_
      rw [hids, Function.update_of_ne (Nat.ne_of_lt hk)]
    rw [TermGraph.edges_addTerm, hedges]
    exact hm.edges
  · -- The new node is on no listing, so its time of joining is free to be set.
    have hunlisted : ∀ id, g.nodes.length ∉ g.listings.under id := by
      intro id hmem
      have hplace : g.glossaryAt g.nodes.length = some id := hg.listings.mem_iff.1 hmem
      rw [glossaryAt, fieldAt_eq_none (Nat.le_refl _)] at hplace
      cases hplace
    rw [TermGraph.joinedAt_concat hnodes, hlength]
    refine (hm.ranked.update hunlisted h.nextJoin).add fun j hj => ?_
    have hne : j ≠ g.nodes.length := fun heq => hunlisted _ (heq ▸ hj)
    rw [Function.update_of_ne hne, Function.update_self]
    exact hm.joinedAt_lt hg hj
  · rw [hnodes, List.mem_append, List.mem_singleton] at hn
    rw [hnext]
    rcases hn with hn | rfl
    · exact Nat.lt_succ_of_lt (hm.joined n hn)
    · exact Nat.lt_succ_self _

/-- The only node of an identity is the one that its index leads to. -/
theorem eq_of_id_eq (hm : Mirrors g h) (hg : g.Consistent) {j k : Nat} {t : Term} {m : Node}
    (ht : g.nodes[k]? = some t) (hmj : h.nodes[j]? = some m) (hid : m.term.id = t.id) : j = k :=
  hg.eq_of_id_eq (hm.getElem?_nodes hmj) ht hid

theorem replaceTerm (hm : Mirrors g h) (hg : g.Consistent) {k : Nat} {previous t : Term}
    (hprevious : g.nodes[k]? = some previous) (hid : previous.id = t.id) :
    Mirrors (g.replaceTerm k previous t) (h.addTerm t) := by
  have hterm : h.term? t.id = some previous := by
    rw [hm.term?_eq hg, hg.term?_eq_some_iff]
    exact ⟨k, hprevious, hid⟩
  have hids : (g.replaceTerm k previous t).idAt = g.idAt := fieldAt_set_of_eq hprevious hid.symm
  obtain ⟨n, hn, hnterm⟩ := hm.exists_node hprevious
  have hlt : k < h.nodes.length := (List.getElem?_eq_some_iff.1 hn).1
  obtain ⟨hupdated, hnext⟩ := TermGraph.addTerm_known hterm
  have hnodes := hupdated.trans (TermGraph.nodes_updateNode hn (by rw [hnterm, hid])
    (fun j m hmj hmid => hm.eq_of_id_eq hg hprevious hmj (hmid.trans hid.symm)) _)
  refine ⟨?_, fun name => ?_, ?_, ?_, ?_, fun m hmem => ?_⟩
  · rw [hnodes, List.map_set, hm.nodes]
    rfl
  · rw [TermGraph.names_addTerm, hterm, hids]
    show (if previous.fullName = t.fullName then h.names
      else (h.names.erase previous.fullName).insert t.fullName t.id).get? name =
        ((renamed g.names previous.fullName t.fullName k).get? name).bind g.idAt
    rw [get?_renamed]
    by_cases hsame : previous.fullName = t.fullName
    · rw [if_pos hsame, if_pos hsame]
      exact hm.names name
    · rw [if_neg hsame, if_neg hsame, Table.get?_insert, Table.get?_erase]
      by_cases hname : name = t.fullName
      · rw [if_pos hname, if_pos hname, Option.bind_some, idAt, fieldAt, hprevious,
          Option.map_some, hid]
      · rw [if_neg hname, if_neg hname]
        by_cases hformer : name = previous.fullName
        · rw [if_pos hformer, if_pos hformer, Option.bind_none]
        · rw [if_neg hformer, if_neg hformer]
          exact hm.names name
  · rw [TermGraph.glossaries_addTerm]
    exact hm.glossaries
  · have hedges : (g.replaceTerm k previous t).edges = g.edges :=
      edges_congr hg rfl fun j _ => congrFun hids j
    rw [TermGraph.edges_addTerm, hedges]
    exact hm.edges
  · rw [TermGraph.joinedAt_set hlt hnodes]
    show (g.listings.move previous.glossary t.glossary k).Ranked _
    unfold Listings.move
    -- A node that changes its glossary joins anew, after all others.
    by_cases hglossary : previous.glossary = t.glossary
    · have hjoined : h.joinedAt k = n.joined := by
        rw [TermGraph.joinedAt, fieldAt, hn, Option.map_some, Option.getD_some]
      simp only [if_pos hglossary, ← hjoined, Function.update_eq_self]
      exact hm.ranked
    · have hplace : g.glossaryAt k = some previous.glossary := by
        rw [glossaryAt, fieldAt, hprevious, Option.map_some]
      have hunlisted : ∀ id, k ∉ (g.listings.remove previous.glossary k).under id := by
        intro id hmem
        have hnone := (hg.listings.remove hplace).mem_iff.1 hmem
        rw [Function.update_self] at hnone
        cases hnone
      simp only [if_neg hglossary]
      refine ((hm.ranked.remove _ k).update hunlisted h.nextJoin).add fun j hj => ?_
      have hne : j ≠ k := fun heq => hunlisted _ (heq ▸ hj)
      rw [Function.update_of_ne hne, Function.update_self]
      rw [Listings.under_remove, if_neg (Ne.symm hglossary)] at hj
      exact hm.joinedAt_lt hg hj
  · rw [hnodes] at hmem
    rw [hnext]
    have hnbound := hm.joined n (List.mem_of_getElem? hn)
    rcases List.mem_or_eq_of_mem_set hmem with hold | rfl
    · have hbound := hm.joined m hold
      split
      · exact hbound
      · omega
    · by_cases hglossary : previous.glossary = t.glossary
      · simpa [hglossary] using hnbound
      · simp [hglossary]

theorem addTerm (hm : Mirrors g h) (hg : g.Consistent) (t : Term) :
    Mirrors (g.addTerm t) (h.addTerm t) := by
  rcases hg.addTerm_cases t with ⟨hnew, hadd⟩ | ⟨k, previous, -, hprevious, hid, hadd⟩
  · rw [hadd]
    exact hm.appendTerm hg hnew
  · rw [hadd]
    exact hm.replaceTerm hg hprevious hid

theorem markDeleted (hm : Mirrors g h) (hg : g.Consistent) (id : TermId) :
    Mirrors (g.markDeleted id).2 ((TermGraph.deleteTerm id).run h).2 := by
  rw [TermGraph.deleteTerm_run, hm.knows_eq hg]
  rcases hg.markDeleted_cases id with ⟨hindex, hmark⟩ | ⟨k, t, hindex, ht, hid, hmark⟩
  · rw [hindex, hmark]
    exact hm
  · have honly : ∀ n ∈ h.nodes, n.term.id = t.id → n.term = t := by
      intro n hn hsame
      obtain ⟨j, hj⟩ := List.mem_iff_getElem?.1 hn
      obtain rfl := hm.eq_of_id_eq hg ht hj hsame
      exact Option.some.inj ((hm.getElem?_nodes hj).symm.trans ht)
    have hterm : h.term? t.id = some t := by
      rw [hm.term?_eq hg, hg.term?_eq_some_iff]
      exact ⟨k, ht, rfl⟩
    rw [hindex, hmark, Option.isSome_some, if_pos rfl, ← hid]
    show Mirrors (g.replaceTerm k t t.asDeleted) (h.updateNode t.id _)
    rw [← TermGraph.addTerm_asDeleted hterm honly]
    exact hm.replaceTerm hg ht rfl

/-! ### Writing edges -/

theorem knowsEnds_eq (hm : Mirrors g h) (hg : g.Consistent) (e : Edge) :
    h.knowsEnds e = (g.arcOf? e).isSome := by
  rw [TermGraph.knowsEnds, hm.knows_eq hg, hm.knows_eq hg]
  unfold arcOf?
  cases g.index? e.source with
  | none => rfl
  | some k =>
      cases g.index? e.target with
      | none => rfl
      | some l => rfl

theorem mem_edges_iff (hm : Mirrors g h) (hg : g.Consistent) {e : Edge} :
    e ∈ h.edges ↔ ∃ a ∈ g.arcs, g.arcOf? e = some a := by
  rw [hm.edges.mem_iff, hg.mem_edges_iff]

theorem withEdges (hm : Mirrors g h) {arcs : List Arc} {edges : List Edge}
    (hedges : edges.Perm (arcs.filterMap g.edge?)) :
    Mirrors { g with arcs := arcs } { h with edges := edges } :=
  ⟨hm.nodes, hm.names, hm.glossaries, hedges, hm.ranked, hm.joined⟩

theorem addEdge (hm : Mirrors g h) (hg : g.Consistent) (e : Edge) :
    Mirrors (((g.addEdge? e).map (·.2)).getD g) ((Store.addEdge e).run h).2 := by
  rw [TermGraph.addEdge_run, hm.knowsEnds_eq hg]
  rcases g.addEdge?_cases e with ⟨harc, hadd⟩ | ⟨a, harc, ⟨hmem, hadd⟩ | ⟨hmem, hadd⟩⟩
  · rw [hadd, harc]
    exact hm
  · have hcontains : h.containsEdge e = true := by
      rw [TermGraph.containsEdge, List.contains_iff_mem]
      exact (hm.mem_edges_iff hg).2 ⟨a, hmem, harc⟩
    have hknown : h.knowsEnds e = true := by rw [hm.knowsEnds_eq hg, harc, Option.isSome_some]
    have hwrite : h.write (.add e) = (false, h) := by
      simp [TermGraph.write, TermGraph.addEdge?, hknown, hcontains]
    rw [hadd, harc, Option.isSome_some, if_pos rfl, hwrite]
    exact hm
  · have hcontains : h.containsEdge e = false := by
      rw [← Bool.not_eq_true, TermGraph.containsEdge, List.contains_iff_mem, hm.mem_edges_iff hg]
      rintro ⟨b, hb, hbarc⟩
      rw [harc] at hbarc
      exact hmem (Option.some.inj hbarc ▸ hb)
    have hknown : h.knowsEnds e = true := by rw [hm.knowsEnds_eq hg, harc, Option.isSome_some]
    have hwrite : h.write (.add e) = (true, { h with edges := h.edges ++ [e] }) := by
      simp [TermGraph.write, TermGraph.addEdge?, hknown, hcontains]
    rw [hadd, harc, Option.isSome_some, if_pos rfl, hwrite]
    refine hm.withEdges ?_
    rw [List.filterMap_append, List.filterMap_cons_some (hg.arcOf?_iff.1 harc), List.filterMap_nil]
    exact hm.edges.append_right [e]

theorem removeEdge (hm : Mirrors g h) (hg : g.Consistent) (e : Edge) :
    Mirrors (g.removeEdge e).2 (h.removeEdge e).2 := by
  rcases g.removeEdge_cases e with ⟨hnone, hremove⟩ | ⟨a, rest, harc, hperm, hremove⟩
  · have hnot : e ∉ h.edges := by
      rw [hm.mem_edges_iff hg]
      rintro ⟨a, ha, harc⟩
      exact hnone a harc ha
    rw [hremove]
    show Mirrors g { h with edges := h.edges.erase e }
    rw [List.erase_of_not_mem hnot]
    exact hm
  · rw [hremove]
    refine hm.withEdges ?_
    have hedges : h.edges.Perm (e :: rest.filterMap g.edge?) := by
      refine hm.edges.trans ((hperm.filterMap g.edge?).trans ?_)
      rw [List.filterMap_cons_some (hg.arcOf?_iff.1 harc)]
    have herased := hedges.erase e
    rwa [List.erase_cons_head] at herased

/-! ### Calls -/

/-- Every call keeps the two graphs alike. -/
theorem call (hm : Mirrors g h) (hg : g.Consistent) (c : GraphCall) :
    Mirrors (g.call c) (c.write.run h) := by
  cases c with
  | addGlossary glossary =>
      refine ⟨hm.nodes, hm.names, ?_, hm.edges, hm.ranked, hm.joined⟩
      show h.glossaries.insert _ _ = g.glossaries.insert _ _
      rw [hm.glossaries]
  | addTerm t => exact hm.addTerm hg t
  | markDeleted id => exact hm.markDeleted hg id
  | addEdge e => exact hm.addEdge hg e
  | removeEdge e => exact hm.removeEdge hg e

theorem runCalls (calls : List GraphCall) :
    ∀ (g : IndexedGraph) (h : TermGraph), g.Consistent → Mirrors g h →
      Mirrors (g.runCalls calls) (runWrites (calls.map GraphCall.write) h) := by
  induction calls with
  | nil => intro g h _ hm; exact hm
  | cons c rest ih =>
      intro g h hg hm
      exact ih (g.call c) (c.write.run h) (hg.call c) (hm.call hg c)

end Mirrors

/-! ## Answers -/

/-- The two graphs give the same answers. All edges are listed in some order. -/
structure AnswersLike (g : IndexedGraph) (h : TermGraph) : Prop where
  term : ∀ id, g.term? id = h.term? id
  termByName : ∀ name, g.termByName? name = h.termByName? name
  glossary : ∀ id, g.glossary? id = h.glossary? id
  members : ∀ id, g.members id = h.members id
  containsEdge : ∀ e, g.containsEdge e = h.containsEdge e
  edgesFrom : ∀ id filter, g.edgesFrom id filter = h.edgesFrom id filter
  edges : g.edges.Perm h.edges

namespace Mirrors

theorem termByName?_eq (hm : Mirrors g h) (hg : g.Consistent) (name : String) :
    g.termByName? name = h.termByName? name := by
  rw [termByName?, TermGraph.termByName?, hm.names]
  cases hname : g.names.get? name with
  | none => rfl
  | some k =>
      have hlt := hg.names name k hname
      have ht : g.nodes[k]? = some g.nodes[k] := List.getElem?_eq_getElem hlt
      have hterm : h.term? g.nodes[k].id = some g.nodes[k] := by
        rw [hm.term?_eq hg, hg.term?_eq_some_iff]
        exact ⟨k, ht, rfl⟩
      rw [Option.bind_some, Option.bind_some, idAt, fieldAt, ht, Option.map_some,
        Option.bind_some, hterm]

/-- The nodes that are listed under a glossary are those whose terms belong to it. -/
theorem listed_perm (hm : Mirrors g h) (hg : g.Consistent) (glossary : GlossaryId) :
    ((g.listings.under glossary).filterMap (h.nodes[·]?)).Perm
      (h.nodes.filter (·.term.glossary = glossary)) := by
  have honly : ∀ (j k : Nat) n, h.nodes[j]? = some n → h.nodes[k]? = some n → j = k :=
    fun j k n hj hk => hm.eq_of_id_eq hg (hm.getElem?_nodes hk) hj rfl
  have hnodes : h.nodes.Nodup := by
    refine List.nodup_iff_getElem?_ne_getElem?.2 fun j k hlt hk heq => ?_
    have hn := List.getElem?_eq_getElem hk
    exact absurd (honly j k _ (heq.trans hn) hn) (Nat.ne_of_lt hlt)
  have hlisted : ((g.listings.under glossary).filterMap (h.nodes[·]?)).Nodup :=
    List.Nodup.filterMap (fun j k n hj hk => honly j k n hj hk) (hg.listings.nodup glossary)
  refine (List.perm_ext_iff_of_nodup hlisted (hnodes.filter _)).2 fun n => ?_
  rw [List.mem_filterMap, List.mem_filter, decide_eq_true_eq]
  have hplace : ∀ k : Nat, h.nodes[k]? = some n →
      (k ∈ g.listings.under glossary ↔ n.term.glossary = glossary) := by
    intro k hk
    rw [hg.listings.mem_iff, glossaryAt, fieldAt, hm.getElem?_nodes hk, Option.map_some,
      Option.some.injEq]
  constructor
  · rintro ⟨k, hlisted, hk⟩
    exact ⟨List.mem_of_getElem? hk, (hplace k hk).1 hlisted⟩
  · rintro ⟨hmem, hglossary⟩
    obtain ⟨k, hk⟩ := List.mem_iff_getElem?.1 hmem
    exact ⟨k, (hplace k hk).2 hglossary, hk⟩

/-- A listing names its nodes in the order of their joining, so sorting it by name lists the
members as they are listed by name and joining. -/
theorem members_eq (hm : Mirrors g h) (hg : g.Consistent) (glossary : GlossaryId) :
    g.members glossary = h.members glossary := by
  have hlisted : (g.listings.under glossary).filterMap (g.nodes[·]?) =
      ((g.listings.under glossary).filterMap (h.nodes[·]?)).map (·.term) := by
    rw [List.map_filterMap, ← hm.nodes]
    simp only [List.getElem?_map]
  have hjoined : ((g.listings.under glossary).filterMap (h.nodes[·]?)).Pairwise
      fun m n => m.joined < n.joined := by
    refine List.Pairwise.filterMap _ ?_ (hm.ranked glossary)
    intro j k hlt m hj n hk
    rwa [TermGraph.joinedAt, TermGraph.joinedAt, fieldAt, fieldAt, hj, hk] at hlt
  have hperm := (hm.listed_perm hg glossary).filter (!·.term.deleted)
  calc
    g.members glossary
      = ((((g.listings.under glossary).filterMap (h.nodes[·]?)).filter
          (!·.term.deleted)).map (·.term)).mergeSort
            fun t u => decide (t.fullName ≤ u.fullName) := by
        rw [IndexedGraph.members, hlisted, List.filter_map]
        rfl
    _ = ((((g.listings.under glossary).filterMap (h.nodes[·]?)).filter
          (!·.term.deleted)).mergeSort TermGraph.nameLe).map (·.term) := by
        symm
        refine List.map_mergeSort ?_
        intro m _ n _
        rfl
    _ = (((h.nodes.filter (·.term.glossary = glossary)).filter
          (!·.term.deleted)).mergeSort TermGraph.memberLe).map (·.term) := by
        rw [TermGraph.mergeSort_nameLe_eq (hjoined.filter _) hperm]
    _ = h.members glossary := by
        rw [List.filter_filter]
        simp only [TermGraph.members, Bool.and_comm]

theorem edgesFrom_eq (hm : Mirrors g h) (hg : g.Consistent) (id : TermId)
    (filter : TypeFilter) : g.edgesFrom id filter = h.edgesFrom id filter := by
  have hsource : ∀ e ∈ g.edges.filter fun e => e.source = id && filter.accepts e.type,
      e.source = id := by
    intro e he
    have hpasses := (List.mem_filter.1 he).2
    rw [Bool.and_eq_true, decide_eq_true_eq] at hpasses
    exact hpasses.1
  rw [hg.edgesFrom_eq, TermGraph.edgesFrom]
  exact Edge.mergeSort_leByType_eq hsource (hm.edges.symm.filter _)

theorem containsEdge_eq (hm : Mirrors g h) (hg : g.Consistent) (e : Edge) :
    g.containsEdge e = h.containsEdge e := by
  have hplace : ∀ a, (g.place? a).isSome = true ↔ a ∈ g.arcs := by
    intro a
    simp [place?]
  rw [Bool.eq_iff_iff, TermGraph.containsEdge, List.contains_iff_mem, hm.mem_edges_iff hg]
  unfold IndexedGraph.containsEdge
  cases harc : g.arcOf? e with
  | none => simp
  | some a => simp [hplace]

theorem answersLike (hm : Mirrors g h) (hg : g.Consistent) : AnswersLike g h where
  term id := (hm.term?_eq hg id).symm
  termByName := hm.termByName?_eq hg
  glossary id := by rw [glossary?, TermGraph.glossary?, hm.glossaries]
  members := hm.members_eq hg
  containsEdge := hm.containsEdge_eq hg
  edgesFrom := hm.edgesFrom_eq hg
  edges := hm.edges.symm

end Mirrors

end IndexedGraph

/-! ## Records after calls -/

namespace GraphCall

variable {id : TermId}

/-- The record of an identity after a call. -/
def recordAfter (c : GraphCall) (id : TermId) (record : Option Term) : Option Term :=
  match c with
  | .addTerm t => if id = t.id then some t else record
  | .markDeleted deleted => if id = deleted then record.map Term.asDeleted else record
  | .addGlossary _ | .addEdge _ | .removeEdge _ => record

theorem term?_write (c : GraphCall) (h : TermGraph) (id : TermId) :
    (c.write.run h).term? id = c.recordAfter id (h.term? id) := by
  have hrewired : ∀ w : Write, (∀ x, w ≠ .edit x) → (w.run h).term? id = h.term? id := by
    intro w hw
    rcases h.rewired_or_edit w with ⟨x, hx⟩ | hrewired
    · exact absurd hx (hw x)
    · exact hrewired.sameTerms.record_eq id
  cases c with
  | addGlossary glossary => exact h.term?_editRun (.putGlossary glossary) id
  | addTerm t => exact h.term?_editRun (.putTerm t) id
  | markDeleted deleted => exact h.term?_editRun (.deleteTerm deleted) id
  | addEdge e => exact hrewired (.addEdge e) fun _ => Write.noConfusion
  | removeEdge e => exact hrewired (.removeEdge e) fun _ => Write.noConfusion

/-- As long as no term of an identity is added, its record stays, but for the mark. -/
theorem term?_runWrites_of_not_added (calls : List GraphCall) :
    ∀ h : TermGraph, (∀ u, .addTerm u ∈ calls → u.id ≠ id) →
      (runWrites (calls.map write) h).term? id =
        if .markDeleted id ∈ calls then (h.term? id).map Term.asDeleted else h.term? id := by
  induction calls with
  | nil => intro h _; rfl
  | cons c rest ih =>
      intro h hcalls
      have hrest := ih (c.write.run h) fun u hu => hcalls u (List.mem_cons_of_mem c hu)
      -- Marking twice is marking once.
      have hmarked : ∀ record : Option Term,
          (record.map Term.asDeleted).map Term.asDeleted = record.map Term.asDeleted := by
        intro record
        rw [Option.map_map]
        rfl
      refine hrest.trans ?_
      rw [term?_write]
      cases c with
      | addTerm t =>
          have hother : id ≠ t.id := (hcalls t List.mem_cons_self).symm
          simp [recordAfter, hother]
      | markDeleted deleted =>
          by_cases hid : id = deleted
          · subst hid
            simp [recordAfter, hmarked]
          · simp [recordAfter, hid]
      | addGlossary glossary => simp [recordAfter]
      | addEdge e => simp [recordAfter]
      | removeEdge e => simp [recordAfter]

/-- The last term that is added under an identity is its record, with the mark if it is
marked after that. -/
theorem term?_runWrites_of_last {before after : List GraphCall} {t : Term} (h : TermGraph)
    (hlast : ∀ u, .addTerm u ∈ after → u.id ≠ t.id) :
    (runWrites ((before ++ .addTerm t :: after).map write) h).term? t.id =
      some (if .markDeleted t.id ∈ after then t.asDeleted else t) := by
  rw [List.map_append, runWrites, List.foldl_append]
  refine (term?_runWrites_of_not_added after _ hlast).trans ?_
  rw [term?_write, recordAfter, if_pos rfl]
  split
  · rfl
  · rfl

end GraphCall

/-! ## After any calls -/

namespace IndexedGraph.Consistent

variable {g : IndexedGraph} {id : TermId} {t : Term}

theorem mem_nodes_iff (h : g.Consistent) : t ∈ g.nodes ↔ g.term? t.id = some t := by
  rw [h.term?_eq_some_iff, List.mem_iff_getElem?]
  simp only [and_true]

/-- The record of an identity is held by the node that its index leads to, and by no
other. -/
theorem exists_index (h : g.Consistent) (ht : g.term? id = some t) :
    ∃ k : Nat, g.index? id = some k ∧ g.nodes[k]? = some t ∧
      ∀ (j : Nat) u, g.nodes[j]? = some u → u.id = id → j = k := by
  obtain ⟨k, hk, rfl⟩ := h.term?_eq_some_iff.1 ht
  refine ⟨k, (h.index _ k).2 ?_, hk, fun j u hj hid => h.eq_of_id_eq hj hk hid⟩
  rw [idAt, fieldAt, hk, Option.map_some]

/-- An identity without a record has no index, and no node has it. -/
theorem index?_eq_none (h : g.Consistent) (hnone : g.term? id = none) :
    g.index? id = none ∧ ∀ u ∈ g.nodes, u.id ≠ id := by
  constructor
  · rw [Option.eq_none_iff_forall_ne_some]
    intro k hindex
    obtain ⟨t, ht, hid⟩ := h.exists_node hindex
    have hsome := h.term?_eq_some_iff.2 ⟨k, ht, hid⟩
    rw [hnone] at hsome
    cases hsome
  · rintro u hu rfl
    rw [h.mem_nodes_iff, hnone] at hu
    cases hu

end IndexedGraph.Consistent

/-- Whatever calls are made to an empty graph, its indexes are kept. The identity of a term
that was added leads to the only node that has it, which holds the last record that was
added, marked as deleted if it was marked later; other identities lead nowhere. A node is
listed once under the glossary of its term and under no other. No two edges are alike, and
those of a term that pass a filter are listed in strict order by type and target. The live
terms of a glossary are listed once each by name. All answers are those of the term graph
without indexes. -/
theorem indexes_kept (calls : List GraphCall) :
    let g := IndexedGraph.empty.runCalls calls
    (∀ before t after, calls = before ++ .addTerm t :: after →
        (∀ u, .addTerm u ∈ after → u.id ≠ t.id) →
        ∃ k : Nat, g.index? t.id = some k ∧
          g.nodes[k]? = some (if .markDeleted t.id ∈ after then t.asDeleted else t) ∧
          ∀ (j : Nat) u, g.nodes[j]? = some u → u.id = t.id → j = k) ∧
      (∀ id, (∀ t, .addTerm t ∈ calls → t.id ≠ id) →
        g.index? id = none ∧ ∀ u ∈ g.nodes, u.id ≠ id) ∧
      (∀ id k, (g.listings.under id).count k =
        if (g.nodes[k]?).map (·.glossary) = some id then 1 else 0) ∧
      g.arcs.Nodup ∧ g.edges.Nodup ∧
      (∀ id filter, (g.edgesFrom id filter).Pairwise Edge.Precedes ∧
        ∀ e, e ∈ g.edgesFrom id filter ↔
          e ∈ g.edges ∧ e.source = id ∧ filter.accepts e.type = true) ∧
      (∀ id, (g.members id).Nodup ∧
        (g.members id).Pairwise (fun t u => t.fullName ≤ u.fullName) ∧
        ∀ t, t ∈ g.members id ↔ t ∈ g.nodes ∧ t.glossary = id ∧ t.deleted = false) ∧
      g.AnswersLike (runWrites (calls.map GraphCall.write) (EditableStore.empty : TermGraph)) := by
  intro g
  have hg : g.Consistent := IndexedGraph.consistent_runCalls calls _ IndexedGraph.consistent_empty
  have hm : g.Mirrors (runWrites (calls.map GraphCall.write) (EditableStore.empty : TermGraph)) :=
    IndexedGraph.Mirrors.runCalls calls _ _ IndexedGraph.consistent_empty
      IndexedGraph.mirrors_empty
  refine ⟨?_, fun id hnone => ?_, hg.listings, hg.nodup, hg.nodup_edges, fun id filter => ?_,
    fun id => ?_, hm.answersLike hg⟩
  · rintro before t after rfl hlast
    refine hg.exists_index ?_
    rw [← hm.term?_eq hg]
    exact GraphCall.term?_runWrites_of_last _ hlast
  · refine hg.index?_eq_none ?_
    rw [← hm.term?_eq hg, GraphCall.term?_runWrites_of_not_added calls _ hnone]
    exact ite_self _
  · exact ⟨hg.pairwise_edgesFrom id filter, fun e => hg.mem_edgesFrom⟩
  · refine ⟨hg.nodup_members id, g.pairwise_members id, fun t => ?_⟩
    rw [hg.mem_members, hg.mem_nodes_iff]

/-- The glossaries and the terms of the calls below. -/
def music : Glossary := { id := ⟨"music"⟩, name := "Music" }

def keyboard : Glossary := { id := ⟨"keyboard"⟩, name := "Keyboard" }

def canon : Term := .topLevel ⟨"canon"⟩ music "Canon"

def fugue : Term := .topLevel ⟨"fugue"⟩ music "Fugue"

/-- An edge from the fugue to the canon. -/
def fugueToCanon (type : String) : Edge := { source := fugue.id, target := canon.id, type := type }

/-- The fugue is deleted and comes back in another glossary; of its edges one is removed. -/
def fugueMoves : List GraphCall :=
  [.addGlossary music, .addTerm canon, .addTerm fugue,
    .addEdge (fugueToCanon "seeAlso"), .addEdge (fugueToCanon "broader"),
    .addEdge (fugueToCanon "seeAlso"), .removeEdge (fugueToCanon "seeAlso"),
    .markDeleted fugue.id, .addGlossary keyboard,
    .addTerm (.topLevel fugue.id keyboard "Fugue"), .markDeleted canon.id]

/-- The fugue keeps its node, is listed with the other glossary only, and has one edge left;
the canon is gone from its glossary. -/
theorem indexes_kept_as_fugue_moves :
    let g := IndexedGraph.empty.runCalls fugueMoves
    let moved : Term := .topLevel fugue.id keyboard "Fugue"
    (∃ k : Nat, g.index? fugue.id = some k ∧ g.nodes[k]? = some moved ∧
        (g.listings.under keyboard.id).count k = 1 ∧ (g.listings.under music.id).count k = 0 ∧
        ∀ (j : Nat) u, g.nodes[j]? = some u → u.id = fugue.id → j = k) ∧
      g.term? canon.id = some canon.asDeleted ∧ g.index? ⟨"gigue"⟩ = none ∧
      g.edges.Nodup ∧ fugueToCanon "broader" ∈ g.edgesFrom fugue.id ["broader"] ∧
      fugueToCanon "seeAlso" ∉ g.edgesFrom fugue.id [] ∧
      moved ∈ g.members keyboard.id ∧ ∀ t, t ∉ g.members music.id := by
  intro g moved
  obtain ⟨hrecord, hunknown, hlisted, -, hedges, hleaving, hmembers, -⟩ :=
    indexes_kept fugueMoves
  obtain ⟨k, hindex, hk, honly⟩ := hrecord (fugueMoves.take 9) moved [.markDeleted canon.id] rfl
    (by simp)
  obtain ⟨l, hcanonIndex, hl, -⟩ := hrecord (fugueMoves.take 1) canon (fugueMoves.drop 2) rfl
    (by simp [fugueMoves, fugue, canon, Term.topLevel])
  have hk : g.nodes[k]? = some moved := hk
  have hl : g.nodes[l]? = some canon.asDeleted := hl
  have hstored : g.edges = [fugueToCanon "broader"] := by decide +kernel
  refine ⟨⟨k, hindex, hk, ?_, ?_, honly⟩, ?_, ?_, hedges, ?_, ?_, ?_, fun t ht => ?_⟩
  · rw [hlisted, hk]
    rfl
  · rw [hlisted, hk]
    rfl
  · rw [IndexedGraph.term?, hcanonIndex]
    exact hl
  · refine (hunknown ⟨"gigue"⟩ ?_).1
    simp [fugueMoves, fugue, canon, Term.topLevel]
  · rw [(hleaving _ _).2, hstored]
    exact ⟨List.mem_singleton_self _, rfl, by decide⟩
  · rw [(hleaving _ _).2, hstored]
    simp [fugueToCanon]
  · exact ((hmembers keyboard.id).2.2 moved).2 ⟨List.mem_of_getElem? hk, rfl, rfl⟩
  · have hnodes : ∀ u ∈ g.nodes, u.glossary = music.id → u.deleted = true := by decide +kernel
    obtain ⟨hmem, hglossary, hlive⟩ := ((hmembers music.id).2.2 t).1 ht
    rw [hnodes t hmem hglossary] at hlive
    cases hlive

end Thesaurus
