import Chmicro.CNumbers

set_option autoImplicit false

namespace Chmicro.Http

def colon : UInt8 := 58

structure ListenAddress where
  host : Bytes
  port : UInt16 := 0
  deriving DecidableEq

/-- `std::string_view::rfind`, where nothing found is `npos`. -/
def rfind (text : Bytes) (c : UInt8) : Option Nat :=
  (text.reverse.findIdx? (· = c)).map fun place => text.length - 1 - place

/-- What is read before the text is refused stays in the address. -/
def parseListen (beyond : Bytes → Int) (s : Bytes) (out : ListenAddress) : Bool × ListenAddress :=
  match rfind s colon with
  | none => (false, out)
  | some place =>
      let out := { out with host := s.take place }
      let portSv := s.drop (place + 1)
      if out.host = [] ∨ portSv = [] then (false, out)
      else
        let port := atoi beyond portSv
        if port ≤ 0 ∨ port > 65535 then (false, out)
        else (true, { out with port := UInt16.ofNat port.toNat })

section Rfind

variable {text : Bytes} {c : UInt8}

theorem rfind_append (before after : Bytes) (absent : c ∉ after) :
    rfind (before ++ c :: after) c = some before.length := by
  have missed : after.reverse.findIdx? (· = c) = none := by
    simp only [List.findIdx?_eq_none_iff, decide_eq_false_iff_not, List.mem_reverse]
    rintro byte member rfl
    exact absent member
  rw [rfind, List.reverse_append, List.reverse_cons, List.append_assoc, List.findIdx?_append, missed,
    Option.none_or, List.singleton_append, List.findIdx?_cons, if_pos (decide_eq_true rfl)]
  simp

/-- What is found is the last one. -/
theorem rfind_eq_some {place : Nat} (found : rfind text c = some place) :
    text = text.take place ++ c :: text.drop (place + 1) ∧ c ∉ text.drop (place + 1) := by
  obtain ⟨back, here, rfl⟩ := Option.map_eq_some_iff.mp found
  obtain ⟨inside, at_, before⟩ := List.findIdx?_eq_some_iff_getElem.mp here
  rw [List.length_reverse] at inside
  rw [List.getElem_reverse, decide_eq_true_eq] at at_
  have next : text.length - 1 - back + 1 = text.length - back := by omega
  constructor
  · have split := List.take_append_drop (text.length - 1 - back) text
    rw [List.drop_eq_getElem_cons (by omega), at_] at split
    exact split.symm
  · rw [next]
    intro member
    obtain ⟨index, bound, same⟩ := List.mem_iff_getElem.mp member
    rw [List.length_drop] at bound
    rw [List.getElem_drop] at same
    have early := before (back - 1 - index) (by omega)
    rw [List.getElem_reverse, decide_eq_true_eq] at early
    have place : text.length - 1 - (back - 1 - index) = text.length - back + index := by omega
    simp only [place] at early
    exact early same

end Rfind

section Accepted

variable (beyond : Bytes → Int) {s : Bytes} {out address : ListenAddress} {place : Nat}

theorem parseListen_found (found : rfind s colon = some place) (out : ListenAddress)
    (host : s.take place ≠ []) (port : s.drop (place + 1) ≠ []) :
    parseListen beyond s out =
      let number := atoi beyond (s.drop (place + 1))
      if number ≤ 0 ∨ number > 65535 then (false, ⟨s.take place, out.port⟩)
      else (true, ⟨s.take place, UInt16.ofNat number.toNat⟩) := by
  rw [parseListen, found]
  dsimp only
  rw [if_neg (by simp [host, port])]

theorem accepted_parts (accepted : parseListen beyond s out = (true, address)) :
    ∃ place, rfind s colon = some place ∧ address.host = s.take place ∧ address.host ≠ [] ∧
      0 < address.port.toNat ∧ atoi beyond (s.drop (place + 1)) = (address.port.toNat : Int) := by
  cases found : rfind s colon with
  | none =>
      rw [parseListen, found] at accepted
      cases accepted
  | some place =>
      by_cases parts : s.take place = [] ∨ s.drop (place + 1) = []
      · rw [parseListen, found] at accepted
        dsimp only at accepted
        rw [if_pos parts] at accepted
        cases accepted
      · obtain ⟨host, port⟩ := not_or.mp parts
        rw [parseListen_found beyond found out host port] at accepted
        dsimp only at accepted
        split_ifs at accepted with range
        · cases accepted
        obtain rfl := (Prod.mk.inj accepted).2
        obtain ⟨positive, small⟩ := not_or.mp range
        have value : (UInt16.ofNat (atoi beyond (s.drop (place + 1))).toNat).toNat =
            (atoi beyond (s.drop (place + 1))).toNat := by
          rw [UInt16.toNat_ofNat']
          omega
        refine ⟨place, rfl, rfl, host, ?_, ?_⟩
        · rw [value]
          omega
        · rw [value, Int.toNat_of_nonneg (by omega)]

theorem parseListen_parts (out : ListenAddress) {portSv : Bytes} (host : address.host ≠ [])
    (positive : 0 < address.port.toNat) (some_ : portSv ≠ []) (last : colon ∉ portSv)
    (read : atoi beyond portSv = (address.port.toNat : Int)) :
    parseListen beyond (address.host ++ colon :: portSv) out = (true, address) := by
  have found := rfind_append address.host portSv last
  have before : (address.host ++ colon :: portSv).take address.host.length = address.host :=
    List.take_left
  have behind : (address.host ++ colon :: portSv).drop (address.host.length + 1) = portSv := by
    rw [← List.drop_drop, List.drop_left]
    rfl
  have bound := address.port.toNat_lt
  rw [parseListen_found beyond found out (by rwa [before]) (by rwa [behind]), behind, before]
  dsimp only
  rw [read, if_neg (by omega), Int.toNat_natCast, UInt16.ofNat_toNat]

/-- What is accepted is a host that is not empty, the last colon, and a text that spells the
port to `std::atoi`, or one beyond an `int` for which it returns the port. -/
theorem listen_accepted_iff (s : Bytes) (out address : ListenAddress) :
    parseListen beyond s out = (true, address) ↔
      address.host ≠ [] ∧ 0 < address.port.toNat ∧
      ∃ portSv, s = address.host ++ colon :: portSv ∧ colon ∉ portSv ∧
        ((∃ blanks sign digits after, portSv = blanks ++ (sign ++ (digits ++ after)) ∧
            Spells blanks sign digits after address.port.toNat) ∨
          ¬ FitsInt portSv ∧ beyond portSv = (address.port.toNat : Int)) := by
  have small : address.port.toNat < 2 ^ 31 := Nat.lt_trans address.port.toNat_lt (by decide)
  constructor
  · intro accepted
    obtain ⟨place, found, host, some_, positive, read⟩ := accepted_parts beyond accepted
    obtain ⟨split, last⟩ := rfind_eq_some found
    refine ⟨some_, positive, s.drop (place + 1), ?_, last, (atoi_eq_pos_iff positive small).mp read⟩
    rw [host]
    exact split
  · rintro ⟨host, positive, portSv, rfl, last, spells⟩
    refine parseListen_parts beyond out host positive ?_ last
      ((atoi_eq_pos_iff positive small).mpr spells)
    rintro rfl
    rcases spells with ⟨blanks, sign, digits, after, split, spells⟩ | ⟨far, -⟩
    · simp [spells.some_] at split
    · exact far (by decide)

/-- An address that is printed is read back. -/
theorem parseListen_printed (out : ListenAddress) (host : address.host ≠ [])
    (port : address.port ≠ 0) :
    parseListen beyond (address.host ++ colon :: decimal address.port.toNat) out =
      (true, address) := by
  have positive : 0 < address.port.toNat :=
    Nat.pos_of_ne_zero fun zero => port (UInt16.toNat_inj.mp zero)
  have plain : colon ∉ decimal address.port.toNat := by
    intro member
    exact absurd (mem_decimal member) (by decide)
  have small : address.port.toNat < 2 ^ 31 := Nat.lt_trans address.port.toNat_lt (by decide)
  refine parseListen_parts beyond out host positive (decimal_ne_nil _) plain
    ((atoi_eq_pos_iff positive small).mpr (.inl ?_))
  exact ⟨[], [], _, [], by simp, spells_decimal _⟩

end Accepted

/-- An IPv6 host holds colons of its own, and what follows the digits is not looked at. -/
example : parseListen (fun _ => 0) (ascii "::1:+8080x") ⟨ascii "0.0.0.0", 8087⟩ =
    (true, ⟨ascii "::1", 8080⟩) := by
  decide +kernel

/-- A library that keeps the low 32 bits. -/
example : parseListen (fun text => (signedNumber text).bmod (2 ^ 32)) (ascii "h:4294967376") ⟨[], 0⟩ =
    (true, ⟨ascii "h", 80⟩) := by
  decide +kernel

end Chmicro.Http
