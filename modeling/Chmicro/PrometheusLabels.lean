import Chmicro.PrometheusText

set_option autoImplicit false

/- The labels of a sample, as a reader of the text format takes them byte by byte. -/
namespace Chmicro.PrometheusText

def comma : UInt8 := 44

def closingBrace : UInt8 := 125

def doubleQuote : UInt8 := 34

def escapeSign : UInt8 := 92

def lowerN : UInt8 := 110

/-- What has been read of the label at hand. -/
inductive Phase where
  | name (name : Bytes)
  | equals (name : Bytes)
  | value (name value : Bytes)
  | escape (name value : Bytes)
  | label
  | closed
  deriving DecidableEq

/-- The labels that are complete, and the phase. -/
abbrev Reading := List (Bytes × Bytes) × Phase

def readByte : Reading → UInt8 → Option Reading
  | (labels, .name name), c =>
      if c ≠ equalsSign then some (labels, .name (name ++ [c]))
      else if LabelName name then some (labels, .equals name)
      else none
  | (labels, .equals name), c => if c = doubleQuote then some (labels, .value name []) else none
  | (labels, .value name value), c =>
      if c = doubleQuote then some (labels ++ [(name, value)], .label)
      else if c = escapeSign then some (labels, .escape name value)
      else if c = newline then none
      else some (labels, .value name (value ++ [c]))
  | (labels, .escape name value), c =>
      if c = escapeSign ∨ c = doubleQuote then some (labels, .value name (value ++ [c]))
      else if c = lowerN then some (labels, .value name (value ++ [newline]))
      else none
  | (labels, .label), c =>
      if c = comma then some (labels, .name [])
      else if c = closingBrace then some (labels, .closed)
      else none
  | (_, .closed), _ => none

def readBytes (reading : Reading) (text : Bytes) : Option Reading := text.foldlM readByte reading

/-- No text stands for no labels. -/
def parseLabels : Bytes → Option (List (Bytes × Bytes))
  | [] => some []
  | first :: text =>
      if first ≠ brace then none
      else
        match readBytes ([], .name []) text with
        | some (labels, .closed) => some labels
        | _ => none

theorem readBytes_cons (reading : Reading) (c : UInt8) (text : Bytes) :
    readBytes reading (c :: text) = (readByte reading c).bind fun next => readBytes next text :=
  rfl

variable (labels : List (Bytes × Bytes)) (text : Bytes)

theorem readBytes_name (before name : Bytes) (plain : equalsSign ∉ name) :
    readBytes (labels, .name before) (name ++ text) =
      readBytes (labels, .name (before ++ name)) text := by
  induction name generalizing before with
  | nil => rw [List.nil_append, List.append_nil]
  | cons c rest ih =>
      rw [List.mem_cons, not_or] at plain
      have read : readByte (labels, .name before) c = some (labels, .name (before ++ [c])) := by
        rw [readByte, if_pos (Ne.symm plain.1)]
      rw [List.cons_append, readBytes_cons, read, Option.bind_some, ih (before ++ [c]) plain.2,
        List.append_assoc, List.singleton_append]

theorem readBytes_equals {name : Bytes} (valid : LabelName name) :
    readBytes (labels, .name name) (equalsSign :: doubleQuote :: text) =
      readBytes (labels, .value name []) text := by
  have equal : readByte (labels, .name name) equalsSign = some (labels, .equals name) := by
    rw [readByte, if_neg (not_not.mpr rfl), if_pos valid]
  rw [readBytes_cons, equal, Option.bind_some, readBytes_cons]
  rfl

theorem LabelName.equalsSign {name : Bytes} (valid : LabelName name) : equalsSign ∉ name :=
  valid.metricName.not_mem (by decide) (by decide) (by decide)

end Chmicro.PrometheusText
