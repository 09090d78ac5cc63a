import Chmicro.KeyedText
import Chmicro.Metrics

set_option autoImplicit false

namespace Chmicro.MetricsRegistry

theorem foldl_key (text : Bytes) (labels : List (Bytes × Bytes)) :
    labels.foldl (fun key label => key ++ label.1 ++ [equalsSign] ++ label.2 ++ [newline]) text =
      text ++ KeyedText.text equalsSign newline labels := by
  induction labels generalizing text with
  | nil => simp [KeyedText.text]
  | cons label rest ih =>
      rw [List.foldl_cons, ih, KeyedText.text_cons]
      simp

theorem key_eq (name : Bytes) (labels : MetricLabels) :
    key name labels = name ++ newline :: KeyedText.text equalsSign newline labels.kv := by
  rw [key, foldl_key]
  simp

/-- The name of the metric holds no newline, and the names of its labels neither a newline
nor the sign between name and value. -/
structure Legal (name : Bytes) (labels : MetricLabels) : Prop where
  name : newline ∉ name
  labels : ∀ label ∈ labels.kv, KeyedText.Named equalsSign newline label.1

instance (name : Bytes) (labels : MetricLabels) : Decidable (Legal name labels) :=
  decidable_of_iff (newline ∉ name ∧ ∀ label ∈ labels.kv, KeyedText.Named equalsSign newline label.1)
    ⟨fun holds => ⟨holds.1, holds.2⟩, fun holds => ⟨holds.name, holds.labels⟩⟩

/-- No label value has a line, after its first, that reads as a later label: a name that
sorts after the label's own, and the sign. -/
def Framed (labels : MetricLabels) : Prop :=
  ∀ label ∈ labels.kv, KeyedText.Framed equalsSign newline (· < ·) label

theorem Framed.of_plain {labels : MetricLabels}
    (plain : ∀ label ∈ labels.kv, newline ∉ label.2 ∨ equalsSign ∉ label.2) : Framed labels := by
  intro label member
  rcases plain label member with single | unsigned
  · exact .of_not_mem equalsSign newline single
  · exact .of_no_sign equalsSign newline unsigned

theorem MetricLabels_ext {first second : MetricLabels} (same : first.kv = second.kv) :
    first = second := by
  cases first
  cases second
  cases same
  rfl

theorem key_injective {name other : Bytes} {labels others : MetricLabels}
    (legal : Legal name labels) (lawful : Legal other others)
    (framed : Framed labels) (closed : Framed others)
    (same : key name labels = key other others) : name = other ∧ labels = others := by
  rw [key_eq, key_eq] at same
  obtain ⟨names, texts⟩ := KeyedText.append_separator_inj same legal.name lawful.name
  exact ⟨names, MetricLabels_ext (KeyedText.text_injective (by decide) labels.sorted others.sorted
    legal.labels lawful.labels framed closed texts)⟩

/-- Labels that are not framed share the key with other legal labels. -/
theorem exists_key_eq {name : Bytes} {labels : MetricLabels} (legal : Legal name labels)
    (unframed : ¬ Framed labels) :
    ∃ others, others ≠ labels ∧ Legal name others ∧ key name others = key name labels := by
  simp only [Framed, not_forall] at unframed
  obtain ⟨label, member, open_⟩ := unframed
  obtain ⟨kv, other, sorted, named, same⟩ :=
    KeyedText.exists_text_eq labels.sorted legal.labels List.lt_trans member open_
  exact ⟨⟨kv, sorted⟩, fun equal => other (congrArg MetricLabels.kv equal), ⟨legal.name, named⟩,
    by simp only [key_eq, same]⟩

end Chmicro.MetricsRegistry
