import Mathlib
import Chmicro.ExpositionSamples
import Chmicro.PrometheusLabels

set_option autoImplicit false

namespace Chmicro.MetricLabels

open PrometheusText

variable (labels : List (Bytes × Bytes)) (text : Bytes)

/-- One byte of a value, escaped or not, is read as that byte. -/
theorem readBytes_escape_byte (name before : Bytes) (c : UInt8) :
    readBytes (labels, .value name before) (escape [c] ++ text) =
      readBytes (labels, .value name (before ++ [c])) text := by
  have written : escape [c] =
      if c = backslash ∨ c = quote then [backslash, c]
      else if c = newline then ascii "\\n"
      else [c] := List.append_nil _
  have escaped (next : UInt8) : readBytes (labels, .value name before) (backslash :: next :: text) =
      (readByte (labels, .escape name before) next).bind fun reading => readBytes reading text :=
    rfl
  rw [written]
  split_ifs with special line
  · have taken : readByte (labels, .escape name before) c =
        some (labels, .value name (before ++ [c])) := if_pos special
    rw [List.cons_append, List.singleton_append, escaped, taken, Option.bind_some]
  · rw [line]
    exact escaped lowerN
  · rw [not_or] at special
    have taken : readByte (labels, .value name before) c =
        some (labels, .value name (before ++ [c])) :=
      (if_neg special.2).trans ((if_neg special.1).trans (if_neg line))
    rw [List.singleton_append, readBytes_cons, taken, Option.bind_some]

theorem readBytes_escape (name before value : Bytes) :
    readBytes (labels, .value name before) (escape value ++ text) =
      readBytes (labels, .value name (before ++ value)) text := by
  induction value generalizing before with
  | nil => simp [escape]
  | cons c rest ih =>
      have first : escape (c :: rest) = escape [c] ++ escape rest := by
        simp [escape]
      rw [first, List.append_assoc, readBytes_escape_byte, ih, List.append_assoc,
        List.singleton_append]

/-- The reader finds the closing quote, and has read the label that was written. -/
theorem readBytes_pairText {label : Bytes × Bytes} (valid : LabelName label.1) :
    readBytes (labels, .name []) (pairText label ++ text) =
      readBytes (labels ++ [label], .label) text := by
  have written : pairText label ++ text =
      label.1 ++ (equalsSign :: doubleQuote :: (escape label.2 ++ doubleQuote :: text)) := by
    simp [pairText, show ascii "=\"" = [equalsSign, doubleQuote] from rfl,
      show ascii "\"" = [doubleQuote] from rfl]
  rw [written, readBytes_name _ _ _ _ valid.equalsSign, List.nil_append,
    readBytes_equals _ _ valid, readBytes_escape, List.nil_append, readBytes_cons]
  rfl

theorem readBytes_rest {rest : List (Bytes × Bytes)}
    (named : ∀ label ∈ rest, LabelName label.1) :
    readBytes (labels, .label)
        (rest.flatMap (fun label => ascii "," ++ pairText label) ++ ascii "\x7d") =
      some (labels ++ rest, .closed) := by
  induction rest generalizing labels with
  | nil =>
      rw [List.append_nil]
      rfl
  | cons label rest ih =>
      rw [List.forall_mem_cons] at named
      have separated : readBytes (labels, .label) (ascii "," ++ (pairText label ++
            (rest.flatMap (fun label => ascii "," ++ pairText label) ++ ascii "\x7d"))) =
          readBytes (labels, .name []) (pairText label ++
            (rest.flatMap (fun label => ascii "," ++ pairText label) ++ ascii "\x7d")) := rfl
      rw [List.flatMap_cons, List.append_assoc, List.append_assoc, separated,
        readBytes_pairText _ _ named.1, ih _ named.2, List.append_assoc, List.singleton_append]

theorem parseLabels_toPrometheusLabelText {labels : MetricLabels}
    (named : ∀ label ∈ labels.kv, LabelName label.1) :
    parseLabels labels.toPrometheusLabelText = some labels.kv := by
  cases kv : labels.kv with
  | nil => simp [toPrometheusLabelText, kv, parseLabels]
  | cons label rest =>
      rw [kv, List.forall_mem_cons] at named
      have read := readBytes_pairText []
        (rest.flatMap (fun label => ascii "," ++ pairText label) ++ ascii "\x7d") named.1
      rw [readBytes_rest _ named.2, ← List.append_assoc] at read
      rw [toPrometheusLabelText_cons kv, parseLabels, if_neg (not_not.mpr rfl), read]
      rfl

theorem label_text_lossless {labels : MetricLabels}
    (named : ∀ label ∈ labels.kv, LabelName label.1) :
    parseLabels labels.toPrometheusLabelText = some labels.kv ∧
    newline ∉ labels.toPrometheusLabelText ∧
    ∀ other : MetricLabels, (∀ label ∈ other.kv, LabelName label.1) →
      other.toPrometheusLabelText = labels.toPrometheusLabelText → other = labels := by
  have parsed := parseLabels_toPrometheusLabelText named
  constructor
  · exact parsed
  constructor
  · exact newline_not_mem_labelText named
  · intro other otherNamed same
    have again := parseLabels_toPrometheusLabelText otherNamed
    rw [same, parsed] at again
    have kv : labels.kv = other.kv := Option.some.inj again
    cases other
    cases labels
    cases kv
    rfl

/-- A value of a quote, a backslash, a newline and what looks like another label. -/
def awkward : MetricLabels where
  kv := [(ascii "path", ascii "\\\"\n\",a=\"\x7b\x7d\\"), (ascii "zone", [])]
  sorted := by decide +kernel

theorem label_text_lossless_awkward :
    parseLabels awkward.toPrometheusLabelText = some awkward.kv :=
  (label_text_lossless (by decide +kernel)).1

end Chmicro.MetricLabels
