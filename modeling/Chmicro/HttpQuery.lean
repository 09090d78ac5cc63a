import Chmicro.HttpTarget

set_option autoImplicit false

/- What the scanner of a request target computes, said without the scanner. -/
namespace Chmicro.Http

/-- The text behind the first question mark, which is empty when there is none. -/
def queryText (target : Bytes) : Bytes := (target.dropWhile (· ≠ questionMark)).tail

def segments (text : Bytes) : List Bytes := (text.splitOn ampersand).filter (· ≠ [])

/-- A segment without an equals sign is a key whose value is empty. -/
def pairOf (segment : Bytes) : Bytes × Bytes :=
  if equalsSign ∈ segment then
    (segment.takeWhile (· ≠ equalsSign), (segment.dropWhile (· ≠ equalsSign)).tail)
  else (segment, [])

def queryPairs (target : Bytes) : List (Bytes × Bytes) :=
  (segments (queryText target)).map pairOf

section Cut

variable {text : Bytes} {c : UInt8}

theorem others_of_absent (absent : c ∉ text) : ∀ byte ∈ text, decide (byte ≠ c) = true := by
  intro byte member
  apply decide_eq_true
  intro same
  exact absent (same ▸ member)

/-- The place that is found cuts the text where the predicate does. -/
theorem takeWhile_of_find {place : Nat} (found : find text c = some place) :
    text.takeWhile (· ≠ c) = text.take place := by
  obtain ⟨cut, absent⟩ := find_eq_some found
  have whole := congrArg (List.takeWhile (· ≠ c)) cut
  rw [List.takeWhile_append_of_pos (others_of_absent absent), List.takeWhile_cons] at whole
  simpa using whole

theorem tail_dropWhile_of_find {place : Nat} (found : find text c = some place) :
    (text.dropWhile (· ≠ c)).tail = text.drop (place + 1) := by
  obtain ⟨cut, absent⟩ := find_eq_some found
  have whole := congrArg (List.dropWhile (· ≠ c)) cut
  rw [List.dropWhile_append_of_pos (others_of_absent absent), List.dropWhile_cons] at whole
  rw [whole]
  simp

theorem dropWhile_of_absent (absent : c ∉ text) : text.dropWhile (· ≠ c) = [] :=
  List.dropWhile_eq_nil_iff.mpr (others_of_absent absent)

theorem mem_of_find {place : Nat} (found : find text c = some place) : c ∈ text := by
  obtain ⟨cut, -⟩ := find_eq_some found
  rw [cut]
  simp

end Cut

theorem extractPath_eq (target : Bytes) :
    extractPath target = target.takeWhile (· ≠ questionMark) := by
  unfold extractPath
  split
  · rename_i missing
    have absent := find_eq_none.mp missing
    exact (List.takeWhile_eq_self_iff.mpr (others_of_absent absent)).symm
  · rename_i q found
    exact (takeWhile_of_find found).symm

section Segments

variable {s : Bytes}

theorem kept_of_some (some_ : s ≠ []) : [s].filter (· ≠ []) = [s] :=
  List.filter_eq_self.mpr (by simpa using some_)

theorem segments_last (some_ : s ≠ []) (absent : find s ampersand = none) : segments s = [s] := by
  rw [segments, List.splitOn_eq_singleton (find_eq_none.mp absent)]
  exact kept_of_some some_

/-- The scanner's cut is one segment, or none when two ampersands meet. -/
theorem segments_next {amp : Nat} (found : find s ampersand = some amp) :
    segments s = [s.take amp].filter (· ≠ []) ++ segments (s.drop (amp + 1)) := by
  obtain ⟨cut, absent⟩ := find_eq_some found
  have split := congrArg (List.splitOn ampersand) cut
  rw [List.splitOn_append_cons_self_of_not_mem absent] at split
  rw [segments, split, ← List.singleton_append, List.filter_append]
  rfl

end Segments

section Pairs

variable (out : NodeMap Bytes Bytes) (key : Bytes)

/-- What an emplace adds is seen only where nothing was. -/
theorem get?_emplace (name value : Bytes) :
    (out.tryEmplace name value).2.get? key = (out.get? key).or ([(name, value)].lookup key) := by
  by_cases same : name = key
  · rw [same, NodeMap.get?_tryEmplace_self]
    cases out.get? key <;> simp
  · have other : (key == name) = false := beq_eq_false_iff_ne.mpr (Ne.symm same)
    rw [NodeMap.get?_tryEmplace_ne out same, List.lookup_cons, other, List.lookup_nil, Option.or_none]

theorem get?_emplacePart (part : Bytes) :
    (emplacePart part out).get? key =
      (out.get? key).or ((([part].filter (· ≠ [])).map pairOf).lookup key) := by
  unfold emplacePart
  split
  · rename_i eq found
    have some_ : part ≠ [] := List.ne_nil_of_mem (mem_of_find found)
    have pair : pairOf part = (part.take eq, part.drop (eq + 1)) := by
      rw [pairOf, if_pos (mem_of_find found), takeWhile_of_find found, tail_dropWhile_of_find found]
    rw [kept_of_some some_, List.map_singleton, pair]
    exact get?_emplace out key _ _
  · rename_i missing
    split
    · rename_i some_
      have pair : pairOf part = (part, []) := if_neg (find_eq_none.mp missing)
      rw [kept_of_some some_, List.map_singleton, pair]
      exact get?_emplace out key _ _
    · rename_i empty
      rw [List.filter_cons_of_neg (by simpa using empty), List.filter_nil, List.map_nil,
        List.lookup_nil, Option.or_none]

/-- The loop reads the segments from the left, and none of them replaces what is there. -/
theorem get?_parseParts (s : Bytes) :
    (parseParts s out).get? key = (out.get? key).or (((segments s).map pairOf).lookup key) := by
  induction s, out using parseParts.induct with
  | case1 out =>
      rw [parseParts_nil]
      exact Option.or_none.symm
  | case2 s out some_ absent =>
      have part := get?_emplacePart out key s
      rw [kept_of_some some_] at part
      rw [parseParts_last out some_ absent, segments_last some_ absent]
      exact part
  | case3 s out some_ amp found ih =>
      rw [parseParts_next out found, ih, get?_emplacePart, segments_next found, List.map_append,
        List.lookup_append, Option.or_assoc]

end Pairs

theorem get?_parseQuery (target key : Bytes) :
    (parseQuery target .empty).get? key = (queryPairs target).lookup key := by
  unfold parseQuery
  split
  · rename_i missing
    rw [queryPairs, queryText, dropWhile_of_absent (find_eq_none.mp missing)]
    rfl
  · rename_i q found
    rw [queryPairs, queryText, tail_dropWhile_of_find found]
    split
    · rename_i last
      rw [List.drop_eq_nil_of_le last]
      rfl
    · exact get?_parseParts .empty key _

/-- The path is the longest prefix without a question mark, and the map is the split. -/
theorem target_split (target : Bytes) :
    (extractPath target <+: target ∧ questionMark ∉ extractPath target ∧
      ∀ path, path <+: target → questionMark ∉ path →
        path.length ≤ (extractPath target).length) ∧
    ∀ key, (parseQuery target .empty).get? key = (queryPairs target).lookup key ∧
      query (parseQuery target .empty) key = ((queryPairs target).lookup key).getD [] := by
  constructor
  · rw [extractPath_eq]
    refine ⟨List.takeWhile_prefix _, fun member => ?_, ?_⟩
    · have other := List.mem_takeWhile_imp member
      exact absurd other (by decide)
    · rintro path ⟨rest, rfl⟩ plain
      rw [List.takeWhile_append_of_pos (others_of_absent plain), List.length_append]
      omega
  · intro key
    have held := get?_parseQuery target key
    exact ⟨held, by rw [query, held]⟩

/-- An empty key, a repeated one, a doubled ampersand, and both signs inside a value. -/
example : queryPairs (ascii "/p?=v&&k=a=?&k=b&k") =
    [([], ascii "v"), (ascii "k", ascii "a=?"), (ascii "k", ascii "b"), (ascii "k", [])] := by
  decide +kernel

end Chmicro.Http
