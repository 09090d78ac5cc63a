import Mathlib.Data.List.Basic
import Mathlib.Data.List.Nodup

set_option autoImplicit false

/-- A map whose nodes stay where they were allocated, so that a reference to a node is its
place in the order of allocation. No node is ever erased. -/
structure NodeMap (κ α : Type) where
  nodes : List (κ × α)
  nodup : (nodes.map Prod.fst).Nodup

namespace NodeMap

variable {κ α : Type}

def empty : NodeMap κ α := ⟨[], List.nodup_nil⟩

/-- Changes the value of one node. -/
def modify (map : NodeMap κ α) (ref : Nat) (change : α → α) : NodeMap κ α where
  nodes := map.nodes.modify ref fun node => (node.1, change node.2)
  nodup := by
    have same : (map.nodes.modify ref fun node => (node.1, change node.2)).map Prod.fst =
        map.nodes.map Prod.fst := by
      refine List.ext_getElem? fun index => ?_
      simp only [List.getElem?_map, List.getElem?_modify]
      cases map.nodes[index]? with
      | none => rfl
      | some node =>
          simp only [Option.map_eq_map, Option.map_some]
          split <;> rfl
    rw [same]
    exact map.nodup

theorem ref_unique (map : NodeMap κ α) {key : κ} {first second : Nat} {value other : α}
    (found : map.nodes[first]? = some (key, value))
    (again : map.nodes[second]? = some (key, other)) : first = second := by
  obtain ⟨inside, -⟩ := List.getElem?_eq_some_iff.mp found
  refine (List.getElem?_inj (by simpa using inside) map.nodup).mp ?_
  simp [found, again]

theorem modify_node (map : NodeMap κ α) (ref : Nat) (change : α → α) (index : Nat) :
    (map.modify ref change).nodes[index]? = map.nodes[index]?.map fun node =>
      (node.1, if ref = index then change node.2 else node.2) := by
  simp only [modify, List.getElem?_modify]
  congr 1
  funext node
  split <;> rfl

theorem forall_modify {map : NodeMap κ α} {holds : κ × α → Prop}
    (all : ∀ node ∈ map.nodes, holds node) (ref : Nat) {change : α → α}
    (kept : ∀ key value, holds (key, value) → holds (key, change value)) :
    ∀ node ∈ (map.modify ref change).nodes, holds node := by
  intro node member
  obtain ⟨index, found⟩ := List.mem_iff_getElem?.mp member
  rw [modify_node] at found
  obtain ⟨⟨key, value⟩, place, rfl⟩ := Option.map_eq_some_iff.mp found
  have before := all (key, value) (List.mem_of_getElem? place)
  split
  · exact kept key value before
  · exact before

section Find

variable [DecidableEq κ]

def find (map : NodeMap κ α) (key : κ) : Option Nat :=
  map.nodes.findIdx? fun node => node.1 = key

theorem find_eq_some {map : NodeMap κ α} {key : κ} {ref : Nat} (found : map.find key = some ref) :
    ∃ value, map.nodes[ref]? = some (key, value) := by
  obtain ⟨inside, same, -⟩ := List.findIdx?_eq_some_iff_getElem.mp found
  have key_eq : map.nodes[ref].1 = key := of_decide_eq_true same
  exact ⟨map.nodes[ref].2, by rw [List.getElem?_eq_getElem inside, ← key_eq]⟩

theorem find_eq_none {map : NodeMap κ α} {key : κ} :
    map.find key = none ↔ key ∉ map.nodes.map Prod.fst := by
  simp only [find, List.findIdx?_eq_none_iff, decide_eq_false_iff_not, List.mem_map, not_exists,
    not_and]

/-- The node of the key, which is made when there is none. -/
def tryEmplace (map : NodeMap κ α) (key : κ) (fresh : α) : Nat × NodeMap κ α :=
  match absent : map.find key with
  | some ref => (ref, map)
  | none =>
      (map.nodes.length,
        { nodes := map.nodes ++ [(key, fresh)]
          nodup := by
            rw [List.map_append, List.nodup_append]
            refine ⟨map.nodup, List.nodup_singleton key, fun old member new single => ?_⟩
            obtain rfl : new = key := by simpa using single
            rintro rfl
            exact find_eq_none.mp absent member })

variable (map : NodeMap κ α) (key : κ) (fresh : α)

theorem tryEmplace_cases :
    (∃ ref, map.find key = some ref ∧ map.tryEmplace key fresh = (ref, map)) ∨
      map.find key = none ∧ (map.tryEmplace key fresh).1 = map.nodes.length ∧
        (map.tryEmplace key fresh).2.nodes = map.nodes ++ [(key, fresh)] := by
  unfold tryEmplace
  split
  · rename_i ref found
    exact .inl ⟨ref, found, rfl⟩
  · rename_i absent
    exact .inr ⟨absent, rfl, rfl⟩

/-- The reference leads to a node of the key. -/
theorem tryEmplace_ref : ∃ value,
    (map.tryEmplace key fresh).2.nodes[(map.tryEmplace key fresh).1]? = some (key, value) := by
  rcases map.tryEmplace_cases key fresh with ⟨ref, found, same⟩ | ⟨-, ref, nodes⟩
  · rw [same]
    exact find_eq_some found
  · rw [ref, nodes]
    exact ⟨fresh, List.getElem?_concat_length⟩

/-- The nodes that were there stay as they were. -/
theorem tryEmplace_kept {ref : Nat} {node : κ × α} (found : map.nodes[ref]? = some node) :
    (map.tryEmplace key fresh).2.nodes[ref]? = some node := by
  rcases map.tryEmplace_cases key fresh with ⟨_, -, same⟩ | ⟨-, -, nodes⟩
  · rw [same]
    exact found
  · rw [nodes, List.getElem?_append_left (List.getElem?_eq_some_iff.mp found).1]
    exact found

/-- A node that was not there is the fresh one, under a key that no node had. -/
theorem tryEmplace_new {ref : Nat} {node : κ × α}
    (found : (map.tryEmplace key fresh).2.nodes[ref]? = some node) :
    map.nodes[ref]? = some node ∨ node = (key, fresh) ∧ key ∉ map.nodes.map Prod.fst := by
  rcases map.tryEmplace_cases key fresh with ⟨_, -, same⟩ | ⟨absent, -, nodes⟩
  · rw [same] at found
    exact .inl found
  · rw [nodes, List.getElem?_append] at found
    split at found
    · exact .inl found
    · have member := List.mem_of_getElem? found
      exact .inr ⟨List.mem_singleton.mp member, find_eq_none.mp absent⟩

theorem forall_tryEmplace {holds : κ × α → Prop} (all : ∀ node ∈ map.nodes, holds node)
    (new : holds (key, fresh)) : ∀ node ∈ (map.tryEmplace key fresh).2.nodes, holds node := by
  intro node member
  obtain ⟨index, found⟩ := List.mem_iff_getElem?.mp member
  rcases map.tryEmplace_new key fresh found with before | ⟨rfl, -⟩
  · exact all node (List.mem_of_getElem? before)
  · exact new

/-- A second lookup of a key returns the reference of the first. -/
theorem tryEmplace_again (other : α) :
    ((map.tryEmplace key fresh).2.tryEmplace key other).1 = (map.tryEmplace key fresh).1 := by
  obtain ⟨value, found⟩ := map.tryEmplace_ref key fresh
  obtain ⟨again, standing⟩ := (map.tryEmplace key fresh).2.tryEmplace_ref key other
  exact ref_unique _ standing (tryEmplace_kept _ key other found)

/-- The value under the key. -/
def get? (map : NodeMap κ α) (key : κ) : Option α :=
  (map.find key).bind fun ref => map.nodes[ref]?.map Prod.snd

/-- Puts the value under the key, in the node the key has or in a new one. -/
def assign (map : NodeMap κ α) (key : κ) (value : α) : NodeMap κ α :=
  let (ref, found) := map.tryEmplace key value
  found.modify ref fun _ => value

theorem get?_eq_some {map : NodeMap κ α} {key : κ} {value : α} :
    map.get? key = some value ↔ ∃ ref : Nat, map.nodes[ref]? = some (key, value) := by
  constructor
  · intro found
    obtain ⟨ref, place, standing⟩ := Option.bind_eq_some_iff.mp found
    obtain ⟨other, node⟩ := find_eq_some place
    rw [node, Option.map_some, Option.some.injEq] at standing
    exact ⟨ref, standing ▸ node⟩
  · rintro ⟨ref, node⟩
    cases place : map.find key with
    | none =>
        refine absurd (List.mem_map.mpr ⟨_, List.mem_of_getElem? node, rfl⟩) (find_eq_none.mp place)
    | some first =>
        obtain ⟨other, standing⟩ := find_eq_some place
        obtain rfl := map.ref_unique standing node
        simp [get?, place, node]

theorem get?_of_absent {map : NodeMap κ α} {key : κ} (absent : map.find key = none) :
    map.get? key = none := by
  rw [get?, absent, Option.bind_none]

/-- The value that was there first stays. -/
theorem get?_tryEmplace_self (map : NodeMap κ α) (key : κ) (fresh : α) :
    (map.tryEmplace key fresh).2.get? key = some ((map.get? key).getD fresh) := by
  apply get?_eq_some.mpr
  rcases map.tryEmplace_cases key fresh with ⟨ref, found, same⟩ | ⟨absent, -, nodes⟩
  · obtain ⟨value, node⟩ := find_eq_some found
    have standing : map.get? key = some value := get?_eq_some.mpr ⟨ref, node⟩
    rw [same, standing]
    exact ⟨ref, node⟩
  · rw [nodes, get?_of_absent absent]
    exact ⟨map.nodes.length, List.getElem?_concat_length⟩

theorem get?_tryEmplace_ne (map : NodeMap κ α) {key other : κ} (different : key ≠ other)
    (fresh : α) : (map.tryEmplace key fresh).2.get? other = map.get? other := by
  refine Option.ext fun found => ?_
  rw [get?_eq_some, get?_eq_some]
  constructor
  · rintro ⟨ref, node⟩
    rcases map.tryEmplace_new key fresh node with kept | ⟨new, -⟩
    · exact ⟨ref, kept⟩
    · exact (different (congrArg Prod.fst new).symm).elim
  · rintro ⟨ref, node⟩
    exact ⟨ref, map.tryEmplace_kept key fresh node⟩

theorem get?_assign_self (map : NodeMap κ α) (key : κ) (value : α) :
    (map.assign key value).get? key = some value := by
  obtain ⟨old, node⟩ := map.tryEmplace_ref key value
  refine get?_eq_some.mpr ⟨(map.tryEmplace key value).1, ?_⟩
  simp only [assign, modify_node, node, Option.map_some, ↓reduceIte]

theorem get?_assign_ne (map : NodeMap κ α) {key other : κ} (different : key ≠ other) (value : α) :
    (map.assign key value).get? other = map.get? other := by
  refine Option.ext fun found => ?_
  rw [get?_eq_some, get?_eq_some]
  obtain ⟨old, place⟩ := map.tryEmplace_ref key value
  constructor
  · rintro ⟨ref, node⟩
    simp only [assign, modify_node] at node
    obtain ⟨⟨name, before⟩, standing, same⟩ := Option.map_eq_some_iff.mp node
    obtain ⟨rfl, rfl⟩ := Prod.mk.inj same
    rcases map.tryEmplace_new key value standing with kept | ⟨new, -⟩
    · split
      · rename_i here
        rw [here, standing] at place
        exact (different (congrArg Prod.fst (Option.some.inj place)).symm).elim
      · exact ⟨ref, kept⟩
    · exact (different (congrArg Prod.fst new).symm).elim
  · rintro ⟨ref, node⟩
    have kept := map.tryEmplace_kept key value node
    refine ⟨ref, ?_⟩
    simp only [assign, modify_node, kept, Option.map_some]
    split
    · rename_i here
      rw [here, kept] at place
      exact (different (congrArg Prod.fst (Option.some.inj place)).symm).elim
    · rfl

theorem get?_modify {map : NodeMap κ α} {ref : Nat} {key : κ} {value : α}
    (node : map.nodes[ref]? = some (key, value)) (change : α → α) (other : κ) :
    (map.modify ref change).get? other =
      if key = other then some (change value) else map.get? other := by
  split
  · rename_i same
    subst same
    refine get?_eq_some.mpr ⟨ref, ?_⟩
    simp only [modify_node, node, Option.map_some, ↓reduceIte]
  · rename_i different
    refine Option.ext fun found => ?_
    have elsewhere {index : Nat} {before : α} (place : map.nodes[index]? = some (other, before)) :
        ref ≠ index := by
      rintro rfl
      exact different (congrArg Prod.fst (Option.some.inj (node.symm.trans place)))
    rw [get?_eq_some, get?_eq_some]
    refine exists_congr fun index => ?_
    rw [modify_node]
    constructor
    · intro changed
      obtain ⟨⟨name, before⟩, place, same⟩ := Option.map_eq_some_iff.mp changed
      obtain ⟨rfl, rfl⟩ := Prod.mk.inj same
      rw [if_neg (elsewhere place)]
      exact place
    · intro place
      rw [place, Option.map_some, if_neg (elsewhere place)]

/-- A node is found or made, and changed. -/
theorem get?_emplace_modify (map : NodeMap κ α) (key : κ) (fresh : α) (change : α → α)
    (other : κ) :
    ((map.tryEmplace key fresh).2.modify (map.tryEmplace key fresh).1 change).get? other =
      if key = other then some (change ((map.get? key).getD fresh)) else map.get? other := by
  obtain ⟨value, node⟩ := map.tryEmplace_ref key fresh
  have held : (map.tryEmplace key fresh).2.get? key = some value := get?_eq_some.mpr ⟨_, node⟩
  rw [get?_tryEmplace_self] at held
  rw [get?_modify node]
  split
  · rw [Option.some.inj held]
  · rename_i different
    exact get?_tryEmplace_ne map different fresh

/-- Only a key that is not there yet makes a node. -/
theorem length_assign (map : NodeMap κ α) (key : κ) (value : α) :
    (map.assign key value).nodes.length =
      map.nodes.length + if (map.get? key).isSome then 0 else 1 := by
  have kept (map : NodeMap κ α) (ref : Nat) :
      (map.modify ref fun _ => value).nodes.length = map.nodes.length := by
    simp [modify]
  rcases map.tryEmplace_cases key value with ⟨ref, found, same⟩ | ⟨absent, -, nodes⟩
  · obtain ⟨old, node⟩ := find_eq_some found
    have present : map.get? key = some old := get?_eq_some.mpr ⟨ref, node⟩
    rw [assign, same, kept, present, Option.isSome_some, if_pos rfl, Nat.add_zero]
  · rw [assign, kept, nodes, List.length_append, get?_of_absent absent]
    rfl

end Find

end NodeMap
