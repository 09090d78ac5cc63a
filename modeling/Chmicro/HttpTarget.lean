import Mathlib.Data.List.Basic
import Chmicro.Metrics

set_option autoImplicit false

namespace Chmicro.Http

def questionMark : UInt8 := 63

def ampersand : UInt8 := 38

/-- `std::string_view::find`, where nothing found is `npos`. -/
def find (text : Bytes) (c : UInt8) : Option Nat := text.findIdx? (· = c)

def extractPath (target : Bytes) : Bytes :=
  match find target questionMark with
  | none => target
  | some q => target.take q

/-- One turn of the loop. The first value of a key stays. -/
def emplacePart (part : Bytes) (out : NodeMap Bytes Bytes) : NodeMap Bytes Bytes :=
  match find part equalsSign with
  | some eq => (out.tryEmplace (part.take eq) (part.drop (eq + 1))).2
  | none => if part ≠ [] then (out.tryEmplace part []).2 else out

theorem find_lt {text : Bytes} {c : UInt8} {place : Nat} (found : find text c = some place) :
    place < text.length :=
  (List.findIdx?_eq_some_iff_getElem.mp found).1

def parseParts (s : Bytes) (out : NodeMap Bytes Bytes) : NodeMap Bytes Bytes :=
  if s = [] then out
  else
    match found : find s ampersand with
    | none => emplacePart s out
    | some amp => parseParts (s.drop (amp + 1)) (emplacePart (s.take amp) out)
termination_by s.length
decreasing_by
  have inside := find_lt found
  rw [List.length_drop]
  omega

def parseQuery (target : Bytes) (out : NodeMap Bytes Bytes) : NodeMap Bytes Bytes :=
  match find target questionMark with
  | none => out
  | some q => if q + 1 ≥ target.length then out else parseParts (target.drop (q + 1)) out

/-- `Request::Query`. -/
def query (map : NodeMap Bytes Bytes) (key : Bytes) : Bytes := (map.get? key).getD []

section Find

variable {text : Bytes} {c : UInt8}

theorem find_eq_none : find text c = none ↔ c ∉ text := by
  simp only [find, List.findIdx?_eq_none_iff, decide_eq_false_iff_not]
  constructor
  · intro all member
    exact all c member rfl
  · intro absent byte member same
    exact absent (same ▸ member)

/-- What is found is the first one. -/
theorem find_eq_some {place : Nat} (found : find text c = some place) :
    text = text.take place ++ c :: text.drop (place + 1) ∧ c ∉ text.take place := by
  obtain ⟨inside, here, before⟩ := List.findIdx?_eq_some_iff_getElem.mp found
  have same : text[place] = c := of_decide_eq_true here
  constructor
  · have split := List.take_append_drop place text
    rw [List.drop_eq_getElem_cons inside, same] at split
    exact split.symm
  · intro member
    obtain ⟨index, short, at_⟩ := List.mem_take_iff_getElem.mp member
    have small : index < place := by omega
    exact absurd at_ (by simpa using before index small)

theorem find_append (before after : Bytes) (absent : c ∉ before) :
    find (before ++ c :: after) c = some before.length := by
  have missed : before.findIdx? (· = c) = none := find_eq_none.mpr absent
  rw [find, List.findIdx?_append, missed, List.findIdx?_cons, if_pos (decide_eq_true rfl)]
  simp

end Find

section Parts

variable {s : Bytes} (out : NodeMap Bytes Bytes)

theorem parseParts_nil : parseParts [] out = out := by
  rw [parseParts, if_pos rfl]

theorem parseParts_last (some_ : s ≠ []) (absent : find s ampersand = none) :
    parseParts s out = emplacePart s out := by
  rw [parseParts, if_neg some_]
  split
  · rfl
  · rename_i amp found
    exact absurd (absent.symm.trans found) (by simp)

theorem parseParts_next {amp : Nat} (found : find s ampersand = some amp) :
    parseParts s out = parseParts (s.drop (amp + 1)) (emplacePart (s.take amp) out) := by
  have some_ : s ≠ [] := List.ne_nil_of_length_pos (Nat.zero_lt_of_lt (find_lt found))
  rw [parseParts, if_neg some_]
  split
  · rename_i absent
    exact absurd (absent.symm.trans found) (by simp)
  · rename_i other again
    obtain rfl : other = amp := Option.some.inj (again.symm.trans found)
    rfl

end Parts

section Values

variable {holds : UInt8 → Prop}

/-- Whatever holds of all the bytes of a text but its ampersands holds of the values read. -/
theorem forall_emplacePart {part : Bytes} {out : NodeMap Bytes Bytes}
    (bytes : ∀ byte ∈ part, holds byte)
    (all : ∀ node ∈ out.nodes, ∀ byte ∈ node.2, holds byte) :
    ∀ node ∈ (emplacePart part out).nodes, ∀ byte ∈ node.2, holds byte := by
  unfold emplacePart
  split
  · rename_i eq found
    apply NodeMap.forall_tryEmplace out _ _ all
    intro byte member
    exact bytes byte (List.mem_of_mem_drop member)
  · split
    · apply NodeMap.forall_tryEmplace out _ _ all
      intro byte member
      exact absurd member List.not_mem_nil
    · exact all

theorem forall_parseParts {s : Bytes} {out : NodeMap Bytes Bytes}
    (bytes : ∀ byte ∈ s, byte ≠ ampersand → holds byte)
    (all : ∀ node ∈ out.nodes, ∀ byte ∈ node.2, holds byte) :
    ∀ node ∈ (parseParts s out).nodes, ∀ byte ∈ node.2, holds byte := by
  induction s, out using parseParts.induct with
  | case1 out =>
      rw [parseParts_nil]
      exact all
  | case2 s out some_ absent =>
      rw [parseParts_last out some_ absent]
      apply forall_emplacePart _ all
      intro byte member
      apply bytes byte member
      intro same
      exact find_eq_none.mp absent (same ▸ member)
  | case3 s out some_ amp found ih =>
      rw [parseParts_next out found]
      apply ih
      · intro byte member
        exact bytes byte (List.mem_of_mem_drop member)
      · apply forall_emplacePart _ all
        intro byte member
        apply bytes byte (List.mem_of_mem_take member)
        intro same
        exact (find_eq_some found).2 (same ▸ member)

theorem forall_parseQuery {target : Bytes}
    (bytes : ∀ byte ∈ target, byte ≠ ampersand → holds byte) :
    ∀ node ∈ (parseQuery target .empty).nodes, ∀ byte ∈ node.2, holds byte := by
  have none_ : ∀ node ∈ (NodeMap.empty : NodeMap Bytes Bytes).nodes, ∀ byte ∈ node.2, holds byte :=
    fun node member => absurd member List.not_mem_nil
  unfold parseQuery
  split
  · exact none_
  · split
    · exact none_
    · apply forall_parseParts _ none_
      intro byte member
      exact bytes byte (List.mem_of_mem_drop member)

/-- What a query holds under a key came out of the target, and from between the ampersands. -/
theorem forall_query {target key : Bytes}
    (bytes : ∀ byte ∈ target, byte ≠ ampersand → holds byte) :
    ∀ byte ∈ query (parseQuery target .empty) key, holds byte := by
  unfold query
  cases found : (parseQuery target .empty).get? key with
  | none => exact fun byte member => absurd member List.not_mem_nil
  | some value =>
      obtain ⟨ref, node⟩ := NodeMap.get?_eq_some.mp found
      exact forall_parseQuery bytes (key, value) (List.mem_of_getElem? node)

end Values

section Single

variable {path name value : Bytes}

/-- A query of one parameter, whose value may hold anything but an ampersand. -/
theorem query_single (pathPlain : questionMark ∉ path) (namePlain : equalsSign ∉ name)
    (nameWhole : ampersand ∉ name) (valueWhole : ampersand ∉ value) :
    query (parseQuery (path ++ questionMark :: (name ++ equalsSign :: value)) .empty) name =
      value := by
  have start := find_append path (name ++ equalsSign :: value) pathPlain
  have behind : (path ++ questionMark :: (name ++ equalsSign :: value)).drop (path.length + 1) =
      name ++ equalsSign :: value := by
    rw [← List.drop_drop, List.drop_left]
    rfl
  have some_ : name ++ equalsSign :: value ≠ [] := by simp
  have whole : find (name ++ equalsSign :: value) ampersand = none := by
    apply find_eq_none.mpr
    rw [List.mem_append, List.mem_cons]
    rintro (inName | equal | inValue)
    · exact nameWhole inName
    · exact absurd equal (by decide)
    · exact valueWhole inValue
  have cut := find_append name value namePlain
  have before : (name ++ equalsSign :: value).take name.length = name := List.take_left
  have after : (name ++ equalsSign :: value).drop (name.length + 1) = value := by
    rw [← List.drop_drop, List.drop_left]
    rfl
  have long : ¬ path.length + 1 ≥ (path ++ questionMark :: (name ++ equalsSign :: value)).length := by
    simp
  have parsed : parseQuery (path ++ questionMark :: (name ++ equalsSign :: value)) .empty =
      (NodeMap.empty.tryEmplace name value).2 := by
    rw [parseQuery, start]
    dsimp only
    rw [if_neg long, behind, parseParts_last _ some_ whole, emplacePart, cut]
    dsimp only
    rw [before, after]
  have held : (NodeMap.empty.tryEmplace name value).2.get? name = some value :=
    NodeMap.get?_tryEmplace_self .empty name value
  rw [parsed, query, held, Option.getD_some]

theorem extractPath_append (after : Bytes) (pathPlain : questionMark ∉ path) :
    extractPath (path ++ questionMark :: after) = path := by
  rw [extractPath, find_append path after pathPlain]
  exact List.take_left

end Single

end Chmicro.Http
