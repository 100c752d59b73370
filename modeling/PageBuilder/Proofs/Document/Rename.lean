import PageBuilder.Proofs.Document.Queries

/-!
Names that nodes are given. A node gets the first name that no other node bears, so the one that it
bears itself is free for it, and asking for the same name again changes nothing.
-/

namespace PageBuilder.Document

open FreshName (FirstFree)

/-- A node has a new name, which leads to it. The name that it gave up leads nowhere. -/
structure Renamed (document next : Document) (id : NodeId) (wanted : String) : Prop where
  root : next.root = document.root
  others : ∀ other, other ≠ id → next.get? other = document.get? other
  named : ∃ node name, document.get? id = some node ∧
    next.get? id = some { node with name } ∧
    FirstFree wanted (NamedBeside document id) name ∧
    next.nodeNamed? name = some { node with name } ∧
    (node.name ≠ name → next.nodeNamed? node.name = none)

variable {document next : Document} {node : Node} {wanted name : String}

theorem get_replace (id : NodeId) :
    (document.replace node).get? id = if id = node.id then some node else document.get? id :=
  get_put id

theorem replace_known (known : document.get? node.id = some node) :
    document.replace node = document := by
  simp only [replace, known, if_true]
  rw [SortedMap.insert_known known]

theorem not_named_beside (valid : document.Valid) (found : document.get? node.id = some node) :
    ¬NamedBeside document node.id node.name := by
  intro beside
  obtain ⟨other, bearer, present, different, same⟩ := beside
  exact different (valid.named present found same)

theorem named_beside_congr {id : NodeId}
    (others : ∀ other, other ≠ id → next.get? other = document.get? other) :
    NamedBeside next id = NamedBeside document id := by
  funext name
  apply propext
  constructor
  · intro beside
    obtain ⟨other, bearer, present, different, same⟩ := beside
    exact ⟨other, bearer, (others other different).symm.trans present, different, same⟩
  · intro beside
    obtain ⟨other, bearer, present, different, same⟩ := beside
    exact ⟨other, bearer, (others other different).trans present, different, same⟩

theorem first_free_propose (valid : document.Valid) (asked : wanted ≠ "") (id : NodeId) :
    FirstFree wanted (NamedBeside document id)
      (FreshName.propose wanted (document.namesBeside id)) := by
  have taken : NamedBeside document id = (· ∈ document.namesBeside id) :=
    funext fun _ => propext (mem_names_beside_iff valid).symm
  rw [FreshName.propose, if_neg (fun empty => asked (String.isEmpty_iff.1 empty)), taken]
  exact FreshName.first_free_choose wanted _

/-- A node that has the wanted name keeps it: that is the first free name, too. -/
theorem rename_found (valid : document.Valid) (found : document.get? node.id = some node)
    (asked : wanted ≠ "") :
    ∃ name, FirstFree wanted (NamedBeside document node.id) name ∧
      document.rename node.id wanted = .ok (document.replace { node with name }) := by
  have renamed : document.rename node.id wanted =
      if node.name = wanted then .ok document
      else .ok (document.replace
        { node with name := FreshName.propose wanted (document.namesBeside node.id) }) := by
    rw [rename, node_ok.2 found]
    rfl
  by_cases same : node.name = wanted
  · refine ⟨node.name, ?_, ?_⟩
    · rw [← same]
      exact .itself (not_named_beside valid found)
    · rw [renamed, if_pos same, replace_known found]
  · exact ⟨_, first_free_propose valid asked node.id, by rw [renamed, if_neg same]⟩

theorem renamed_replace (valid : document.Valid)
    (after : (document.replace { node with name }).Valid)
    (found : document.get? node.id = some node)
    (first : FirstFree wanted (NamedBeside document node.id) name) :
    Renamed document (document.replace { node with name }) node.id wanted := by
  have here : (document.replace { node with name }).get? node.id = some { node with name } := by
    rw [get_replace, if_pos rfl]
  have others (other : NodeId) (different : other ≠ node.id) :
      (document.replace { node with name }).get? other = document.get? other := by
    rw [get_replace, if_neg different]
  refine ⟨rfl, others, node, name, found, here, first, ?_, ?_⟩
  · exact (node_named_iff after).2 ⟨mem_all_nodes.2 ⟨node.id, here⟩, rfl⟩
  · intro given
    rw [Option.eq_none_iff_forall_ne_some]
    intro bearer known
    obtain ⟨member, same⟩ := (node_named_iff after).1 known
    obtain ⟨id, present⟩ := mem_all_nodes.1 member
    by_cases own : id = node.id
    · rw [own, here] at present
      cases present
      exact given same.symm
    · exact not_named_beside valid found ⟨id, bearer, (others id own).symm.trans present, own, same⟩

/-- Every node can be renamed. The name that it gets then is still the first free one, so it is not
renamed again. -/
theorem node_renamed (valid : document.Valid) {id : NodeId}
    (found : document.get? id = some node) (asked : wanted ≠ "") :
    ∃ next, document.rename id wanted = .ok next ∧ next.Valid ∧
      Renamed document next id wanted ∧ next.rename id wanted = .ok next := by
  have own : node.id = id := valid.stored found
  subst own
  obtain ⟨name, first, done⟩ := rename_found valid found asked
  have after := valid_rename valid done
  have renamed := renamed_replace valid after found first
  refine ⟨_, done, after, renamed, ?_⟩
  have here : (document.replace { node with name }).get? node.id = some { node with name } := by
    rw [get_replace, if_pos rfl]
  obtain ⟨again, later, repeated⟩ := @rename_found _ { node with name } wanted after here asked
  rw [named_beside_congr renamed.others] at later
  cases later.unique first
  rw [repeated, replace_known here]

/-- The second element has the wanted name with a number; a third one has that number, too. -/
def sampleNames : Document :=
  sampleTree.run [.setNodeName "b" "a", .setNodeName "c" "a1"]

/-- One name is a number behind the other that is taken; the node that has it asks for it again. -/
theorem node_renamed_sample :
    sampleNames.Valid ∧ "a" ≠ "" ∧
      sampleNames.names.keys = ["a", "a1", "a11", "application", "home", "sum"] ∧
      ∃ node next, sampleNames.get? "c" = some node ∧ node.name = "a11" ∧
        sampleNames.rename "c" "a" = .ok next ∧ Renamed sampleNames next "c" "a" ∧
        next.names.keys = ["a", "a1", "a2", "application", "home", "sum"] ∧
        next.rename "c" "a" = .ok next := by
  have valid : sampleNames.Valid := valid_run sample_tree_valid _
  have there : (sampleNames.get? "c").map Node.name = some "a11" := by decide +kernel
  obtain ⟨node, found, named⟩ := Option.map_eq_some_iff.1 there
  obtain ⟨next, done, _, renamed, again⟩ := node_renamed valid found (show "a" ≠ "" by decide)
  have keys : (sampleNames.rename "c" "a").map (fun next => next.names.keys) =
      .ok ["a", "a1", "a2", "application", "home", "sum"] := by decide +kernel
  rw [done] at keys
  exact ⟨valid, by decide, by decide +kernel, node, next, found, named, done, renamed,
    Except.ok.inj keys, again⟩

end PageBuilder.Document
