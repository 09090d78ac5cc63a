import Mathlib.Data.List.Basic
import Chmicro.Metrics

set_option autoImplicit false

namespace Chmicro.Http

/-- A text of the router and of the wire, with one character for each byte. -/
def text (bytes : Bytes) : String := String.ofList (bytes.map fun byte => Char.ofNat byte.toNat)

theorem toNat_ofNat_byte (byte : UInt8) : (Char.ofNat byte.toNat).toNat = byte.toNat := by
  have small := byte.toNat_lt
  have valid : byte.toNat.isValidChar := .inl (by omega)
  rw [Char.ofNat, dif_pos valid]
  rfl

/-- No byte is lost. -/
theorem ascii_text (bytes : Bytes) : ascii (text bytes) = bytes := by
  rw [ascii, text, String.toList_ofList, List.map_map]
  refine (List.map_congr_left fun byte _ => ?_).trans (List.map_id bytes)
  simp [toNat_ofNat_byte]

theorem text_injective : Function.Injective text :=
  Function.LeftInverse.injective ascii_text

/-- Names of fields are compared without regard to case. -/
def folded (name : String) : List Char := name.toList.map Char.toLower

/-- The fields of a message, in their order. -/
abbrev Fields := List (String × String)

/-- A space or a tab, which the ends of a value are stripped of. -/
def blank (char : Char) : Bool := char = ' ' || char = '\t'

/-- A field that is kept as it is. A longer name or value is refused. -/
structure Storable (name value : String) : Prop where
  short : name.length ≤ 65533
  fits : value.length ≤ 65533
  first : value.toList.head?.all fun char => !blank char
  last : value.toList.getLast?.all fun char => !blank char

instance (name value : String) : Decidable (Storable name value) :=
  decidable_of_iff (name.length ≤ 65533 ∧ value.length ≤ 65533 ∧
      (value.toList.head?.all fun char => !blank char) ∧
      value.toList.getLast?.all fun char => !blank char)
    ⟨fun all => ⟨all.1, all.2.1, all.2.2.1, all.2.2.2⟩,
      fun held => ⟨held.short, held.fits, held.first, held.last⟩⟩

theorem text_length (bytes : Bytes) : (text bytes).length = bytes.length := by
  rw [text, String.length_ofList, List.length_map]

/-- A text without blanks and control characters. -/
theorem storable_text {name : String} {bytes : Bytes} (short : name.length ≤ 65533)
    (fits : bytes.length ≤ 65533) (printed : ∀ byte ∈ bytes, 32 < byte.toNat) :
    Storable name (text bytes) := by
  have solid : ∀ char ∈ (text bytes).toList, !blank char := by
    intro char member
    rw [text, String.toList_ofList] at member
    obtain ⟨byte, listed, rfl⟩ := List.mem_map.mp member
    have above := printed byte listed
    rw [← toNat_ofNat_byte] at above
    have gap : Char.ofNat byte.toNat ≠ ' ' := fun same => by
      rw [same] at above
      exact absurd above (by decide)
    have tab : Char.ofNat byte.toNat ≠ '\t' := fun same => by
      rw [same] at above
      exact absurd above (by decide)
    simp [blank, gap, tab]
  refine ⟨short, by rwa [text_length], ?_, ?_⟩
  · rw [Option.all_eq_true]
    exact fun char first => solid char (List.mem_of_mem_head? first)
  · rw [Option.all_eq_true]
    exact fun char last => solid char (List.mem_of_mem_getLast? last)

end Chmicro.Http
