import Chmicro.Metrics
import Chmicro.TextLines

set_option autoImplicit false

/- The text format, version 0.0.4, as its readers see it. -/
namespace Chmicro.PrometheusText

open TextLines

def space : UInt8 := 32

def brace : UInt8 := 123

def hash : UInt8 := 35

/-- A line, read as far as the name it is about. -/
inductive Line where
  | blank
  | help (name text : Bytes)
  | type (name kind : Bytes)
  | comment (text : Bytes)
  | sample (name rest : Bytes)
  deriving DecidableEq

def helpStart : Bytes := ascii "# HELP "

def typeStart : Bytes := ascii "# TYPE "

/-- What stands before the first space, and what stands after it. -/
def beforeSpace (text : Bytes) : Bytes × Bytes :=
  (text.takeWhile (· ≠ space), (text.dropWhile (· ≠ space)).tail)

/-- The name of a sample goes on until its labels or its value. -/
def inName (byte : UInt8) : Bool := byte ≠ space && byte ≠ brace

def parseLine (line : Bytes) : Line :=
  if line = [] then .blank
  else if helpStart <+: line then
    let (name, text) := beforeSpace (line.drop helpStart.length)
    .help name text
  else if typeStart <+: line then
    let (name, kind) := beforeSpace (line.drop typeStart.length)
    .type name kind
  else if line.head? = some hash then .comment line
  else .sample (line.takeWhile inName) (line.dropWhile inName)

def parse (text : Bytes) : List Line := (text.splitOn newline).map parseLine

section Names

def letter (byte : UInt8) : Bool :=
  (97 ≤ byte && byte ≤ 122) || (65 ≤ byte && byte ≤ 90) || byte = 95

def digit (byte : UInt8) : Bool := 48 ≤ byte && byte ≤ 57

def colon : UInt8 := 58

/-- `[a-zA-Z_:][a-zA-Z0-9_:]*` -/
def MetricName : Bytes → Prop
  | [] => False
  | first :: rest => (letter first ∨ first = colon) ∧
      ∀ byte ∈ rest, letter byte ∨ digit byte ∨ byte = colon

/-- `[a-zA-Z_][a-zA-Z0-9_]*` -/
def LabelName : Bytes → Prop
  | [] => False
  | first :: rest => letter first ∧ ∀ byte ∈ rest, letter byte ∨ digit byte

instance : DecidablePred MetricName
  | [] => isFalse id
  | first :: rest => inferInstanceAs (Decidable ((letter first ∨ first = colon) ∧
      ∀ byte ∈ rest, letter byte ∨ digit byte ∨ byte = colon))

instance : DecidablePred LabelName
  | [] => isFalse id
  | first :: rest => inferInstanceAs (Decidable (letter first ∧
      ∀ byte ∈ rest, letter byte ∨ digit byte))

variable {name : Bytes}

theorem LabelName.metricName (valid : LabelName name) : MetricName name := by
  cases name with
  | nil => exact valid
  | cons first rest =>
      constructor
      · exact .inl valid.1
      intro byte member
      rcases valid.2 byte member with letter | digit
      · exact .inl letter
      · exact .inr (.inl digit)

theorem MetricName.byte (valid : MetricName name) {byte : UInt8} (member : byte ∈ name) :
    letter byte ∨ digit byte ∨ byte = colon := by
  cases name with
  | nil => exact valid.elim
  | cons first rest =>
      rcases List.mem_cons.mp member with rfl | later
      · rcases valid.1 with letter | colon
        · exact .inl letter
        · exact .inr (.inr colon)
      · exact valid.2 byte later

theorem MetricName.not_mem (valid : MetricName name) {byte : UInt8} (letter_ : letter byte = false)
    (digit_ : digit byte = false) (colon_ : byte ≠ colon) : byte ∉ name := by
  intro member
  rcases valid.byte member with inside | inside | inside
  · exact absurd inside (by simp [letter_])
  · exact absurd inside (by simp [digit_])
  · exact colon_ inside

theorem MetricName.newline (valid : MetricName name) : newline ∉ name :=
  valid.not_mem (by decide) (by decide) (by decide)

theorem MetricName.space (valid : MetricName name) : space ∉ name :=
  valid.not_mem (by decide) (by decide) (by decide)

theorem MetricName.brace (valid : MetricName name) : brace ∉ name :=
  valid.not_mem (by decide) (by decide) (by decide)

theorem MetricName.hash (valid : MetricName name) : hash ∉ name :=
  valid.not_mem (by decide) (by decide) (by decide)

theorem MetricName.exists_cons (valid : MetricName name) : ∃ first rest, name = first :: rest := by
  cases name with
  | nil => exact valid.elim
  | cons first rest => exact ⟨first, rest, rfl⟩

theorem MetricName.append (valid : MetricName name) {suffix : Bytes}
    (more : ∀ byte ∈ suffix, letter byte ∨ digit byte ∨ byte = colon) :
    MetricName (name ++ suffix) := by
  obtain ⟨first, rest, rfl⟩ := valid.exists_cons
  constructor
  · exact valid.1
  intro byte member
  rcases List.mem_append.mp member with inside | new
  · exact valid.2 byte inside
  · exact more byte new

end Names

section ParseLine

variable {name : Bytes}

theorem beforeSpace_append (valid : MetricName name) (text : Bytes) :
    beforeSpace (name ++ space :: text) = (name, text) := by
  have inside : ∀ byte ∈ name, decide (byte ≠ space) = true := by
    intro byte member
    exact decide_eq_true fun same => valid.space (same ▸ member)
  rw [beforeSpace, List.takeWhile_append_of_pos inside, List.dropWhile_append_of_pos inside]
  simp

theorem parseLine_help (valid : MetricName name) (text : Bytes) :
    parseLine (helpStart ++ name ++ space :: text) = .help name text := by
  have starts : helpStart <+: helpStart ++ (name ++ space :: text) := List.prefix_append _ _
  have some_ : helpStart ++ (name ++ space :: text) ≠ [] := by simp
  rw [List.append_assoc, parseLine, if_neg some_, if_pos starts, List.drop_left]
  simp only [beforeSpace_append valid]

theorem parseLine_type (valid : MetricName name) (kind : Bytes) :
    parseLine (typeStart ++ name ++ space :: kind) = .type name kind := by
  have starts : typeStart <+: typeStart ++ (name ++ space :: kind) := List.prefix_append _ _
  have other : ¬ helpStart <+: typeStart ++ (name ++ space :: kind) := by
    intro both
    have bytes := List.prefix_of_prefix_length_le both starts (by decide)
    exact absurd bytes (by decide)
  have some_ : typeStart ++ (name ++ space :: kind) ≠ [] := by simp
  rw [List.append_assoc, parseLine, if_neg some_, if_neg other, if_pos starts, List.drop_left]
  simp only [beforeSpace_append valid]

/-- The rest of a sample's line starts with its labels or with the space before its value. -/
theorem parseLine_sample (valid : MetricName name) {byte : UInt8} (stop : inName byte = false)
    (rest : Bytes) : parseLine (name ++ byte :: rest) = .sample name (byte :: rest) := by
  obtain ⟨first, more, rfl⟩ := valid.exists_cons
  have plain : first ≠ hash := by
    rintro rfl
    exact valid.hash List.mem_cons_self
  have helps : ¬ helpStart <+: first :: more ++ byte :: rest := by
    intro starts
    exact plain (List.cons_prefix_cons.mp starts).1.symm
  have types : ¬ typeStart <+: first :: more ++ byte :: rest := by
    intro starts
    exact plain (List.cons_prefix_cons.mp starts).1.symm
  have inside : ∀ byte ∈ first :: more, inName byte = true := by
    intro byte member
    have gap : byte ≠ space := fun same => valid.space (same ▸ member)
    have open_ : byte ≠ brace := fun same => valid.brace (same ▸ member)
    simp [inName, gap, open_]
  have some_ : first :: more ++ byte :: rest ≠ [] := by simp
  have head : ¬ (first :: more ++ byte :: rest).head? = some hash := by simpa using plain
  rw [parseLine, if_neg some_, if_neg helps, if_neg types, if_neg head,
    List.takeWhile_append_of_pos inside, List.dropWhile_append_of_pos inside,
    List.takeWhile_cons_of_neg (by simp [stop]), List.dropWhile_cons_of_neg (by simp [stop]),
    List.append_nil]

end ParseLine

end Chmicro.PrometheusText
