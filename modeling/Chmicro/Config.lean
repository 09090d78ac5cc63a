import Chmicro.Metrics
import Chmicro.Status

set_option autoImplicit false

namespace Chmicro

/-- A parsed value, with what is read of it. An object finds its members. -/
inductive SvValue where
  | null
  | boolean
  | integer (value : Int64)
  | real
  | string (text : Bytes)
  | array
  | object (members : Bytes → Option SvValue)

namespace SvValue

def isObject : SvValue → Bool
  | object _ => true
  | _ => false

def isNumber : SvValue → Bool
  | integer _ | real => true
  | _ => false

def isInt : SvValue → Bool
  | integer _ => true
  | _ => false

def isString : SvValue → Bool
  | string _ => true
  | _ => false

def find (value : SvValue) (key : Bytes) : Option SvValue :=
  match value with
  | object members => members key
  | _ => none

/-- Read only where `isInt` holds. -/
def asInt : SvValue → Int64
  | integer value => value
  | _ => 0

/-- Read only where `isString` holds. -/
def asStringView : SvValue → Bytes
  | string text => text
  | _ => []

end SvValue

inductive ErrorCode where
  | ok
  | unexpectedEof
  | invalidValue
  | invalidNumber
  | invalidString
  | invalidEscape
  | invalidUnicodeEscape
  | invalidUtf16Surrogate
  | expectedColon
  | expectedCommaOrEnd
  | expectedKeyString
  | trailingCharacters
  | nestingTooDeep
  | outOfMemory
  deriving DecidableEq

/-- What the parser reports when it fails. -/
structure ParseError where
  code : ErrorCode
  line : Nat
  column : Nat

def errorCodeToString : ErrorCode → String
  | .ok => "ok"
  | .unexpectedEof => "unexpected_eof"
  | .invalidValue => "invalid_value"
  | .invalidNumber => "invalid_number"
  | .invalidString => "invalid_string"
  | .invalidEscape => "invalid_escape"
  | .invalidUnicodeEscape => "invalid_unicode_escape"
  | .invalidUtf16Surrogate => "invalid_utf16_surrogate"
  | .expectedColon => "expected_colon"
  | .expectedCommaOrEnd => "expected_comma_or_end"
  | .expectedKeyString => "expected_key_string"
  | .trailingCharacters => "trailing_characters"
  | .nestingTooDeep => "nesting_too_deep"
  | .outOfMemory => "out_of_memory"

def formatParseError (e : ParseError) : String :=
  "invalid json: " ++ errorCodeToString e.code ++ " at line " ++ toString e.line ++ ", col " ++
    toString e.column

/-- A loaded configuration. Its root is an object. -/
structure Config where
  root : SvValue
  rootObject : root.isObject

namespace Config

/-- The text of the file is missing when it cannot be opened. -/
def loadFile (parse : Bytes → Except ParseError SvValue) (file : Option Bytes) : Result Config :=
  match file with
  | none => .error ⟨.notFound, "config file not found"⟩
  | some text =>
      match parse text with
      | .error err => .error ⟨.invalidArgument, formatParseError err⟩
      | .ok root =>
          if rootObject : root.isObject then .ok ⟨root, rootObject⟩
          else .error ⟨.invalidArgument, "config root must be a JSON object"⟩

variable (config : Config) (key : Bytes)

def has : Bool := (config.root.find key).isSome

def getString : Result Bytes :=
  match config.root.find key with
  | none => .error ⟨.notFound, "missing key"⟩
  | some v =>
      if ¬ v.isString then .error ⟨.invalidArgument, "not a string"⟩ else .ok v.asStringView

/-- The cast to `int` keeps the low 32 bits. -/
def getInt : Result Int32 :=
  match config.root.find key with
  | none => .error ⟨.notFound, "missing key"⟩
  | some v =>
      if ¬ v.isNumber ∨ ¬ v.isInt then .error ⟨.invalidArgument, "not an int"⟩
      else .ok v.asInt.toInt32

/-- Only a file that cannot be opened is reported as not found. -/
theorem loadFile_error {parse : Bytes → Except ParseError SvValue} {file : Option Bytes}
    {status : Status} (failed : loadFile parse file = .error status) :
    status.code = if file.isNone then .notFound else .invalidArgument := by
  unfold loadFile at failed
  cases file with
  | none =>
      obtain rfl := Except.error.inj failed
      rfl
  | some text =>
      dsimp only at failed
      split at failed
      · obtain rfl := Except.error.inj failed
        rfl
      · split at failed
        · exact absurd failed (by simp)
        · obtain rfl := Except.error.inj failed
          rfl

variable {config key}

section Accessors

theorem has_iff : config.has key ↔ config.root.find key ≠ none :=
  Option.isSome_iff_ne_none

theorem getInt_missing (absent : config.root.find key = none) :
    config.getInt key = .error ⟨.notFound, "missing key"⟩ := by
  rw [getInt, absent]

theorem getInt_integer {n : Int64} (present : config.root.find key = some (.integer n)) :
    config.getInt key = .ok n.toInt32 := by
  simp [getInt, present, SvValue.isNumber, SvValue.isInt, SvValue.asInt]

/-- All that a read of an `int` can do. -/
theorem getInt_cases (config : Config) (key : Bytes) :
    config.root.find key = none ∧ config.getInt key = .error ⟨.notFound, "missing key"⟩ ∨
      config.root.find key ≠ none ∧
        config.getInt key = .error ⟨.invalidArgument, "not an int"⟩ ∨
      ∃ n, config.root.find key = some (.integer n) ∧ config.getInt key = .ok n.toInt32 := by
  cases found : config.root.find key with
  | none => exact .inl ⟨rfl, getInt_missing found⟩
  | some v =>
      cases v with
      | integer n => exact .inr (.inr ⟨n, rfl, getInt_integer found⟩)
      | _ => exact .inr (.inl ⟨by simp, by simp [getInt, found, SvValue.isInt]⟩)

theorem getString_string {text : Bytes} (present : config.root.find key = some (.string text)) :
    config.getString key = .ok text := by
  simp [getString, present, SvValue.isString, SvValue.asStringView]

theorem getString_cases (config : Config) (key : Bytes) :
    config.root.find key = none ∧ config.getString key = .error ⟨.notFound, "missing key"⟩ ∨
      config.root.find key ≠ none ∧
        config.getString key = .error ⟨.invalidArgument, "not a string"⟩ ∨
      ∃ text, config.root.find key = some (.string text) ∧ config.getString key = .ok text := by
  cases found : config.root.find key with
  | none => exact .inl ⟨rfl, by rw [getString, found]⟩
  | some v =>
      cases v with
      | string text => exact .inr (.inr ⟨text, rfl, getString_string found⟩)
      | _ => exact .inr (.inl ⟨by simp, by simp [getString, found, SvValue.isString]⟩)

end Accessors

variable (config key) in
/-- What a failed read reports says whether the key is there. -/
def Blamed (status : Status) : Prop :=
  status.code = if config.root.find key = none then .notFound else .invalidArgument

variable (config key) in
/-- The three accessors agree with the member that the key has. -/
structure Faithful : Prop where
  int_value : ∀ n : Int32, config.getInt key = .ok n ↔
    ∃ value : Int64, config.root.find key = some (.integer value) ∧ value.toInt = n.toInt
  int_error : ∀ status, config.getInt key = .error status → config.Blamed key status
  string_value : ∀ text, config.getString key = .ok text ↔
    config.root.find key = some (.string text)
  string_error : ∀ status, config.getString key = .error status → config.Blamed key status
  has_member : config.has key ↔
    (∀ status, config.getInt key = .error status → status.code ≠ .notFound) ∧
      ∀ status, config.getString key = .error status → status.code ≠ .notFound

section Reads

variable {status : Status}

theorem getInt_error (failed : config.getInt key = .error status) : config.Blamed key status := by
  rcases config.getInt_cases key with ⟨absent, read⟩ | ⟨some_, read⟩ | ⟨n, -, read⟩
  · obtain rfl := Except.error.inj (read.symm.trans failed)
    exact (if_pos absent).symm
  · obtain rfl := Except.error.inj (read.symm.trans failed)
    exact (if_neg some_).symm
  · exact absurd (read.symm.trans failed) (by simp)

theorem getString_error (failed : config.getString key = .error status) :
    config.Blamed key status := by
  rcases config.getString_cases key with ⟨absent, read⟩ | ⟨some_, read⟩ | ⟨text, -, read⟩
  · obtain rfl := Except.error.inj (read.symm.trans failed)
    exact (if_pos absent).symm
  · obtain rfl := Except.error.inj (read.symm.trans failed)
    exact (if_neg some_).symm
  · exact absurd (read.symm.trans failed) (by simp)

theorem getInt_ok {n : Int32} (read : config.getInt key = .ok n) :
    ∃ value : Int64, config.root.find key = some (.integer value) ∧ value.toInt32 = n := by
  rcases config.getInt_cases key with ⟨-, failed⟩ | ⟨-, failed⟩ | ⟨value, found, again⟩
  · exact absurd (failed.symm.trans read) (by simp)
  · exact absurd (failed.symm.trans read) (by simp)
  · exact ⟨value, found, Except.ok.inj (again.symm.trans read)⟩

theorem getString_ok {text : Bytes} (read : config.getString key = .ok text) :
    config.root.find key = some (.string text) := by
  rcases config.getString_cases key with ⟨-, failed⟩ | ⟨-, failed⟩ | ⟨held, found, again⟩
  · exact absurd (failed.symm.trans read) (by simp)
  · exact absurd (failed.symm.trans read) (by simp)
  · rw [Except.ok.inj (read.symm.trans again)]
    exact found

end Reads

section Cast

/-- An `int` comes back from the cast, and only what is one does. -/
theorem toInt32_eq {value : Int64} {n : Int32} (same : value.toInt = n.toInt) :
    value.toInt32 = n := by
  have low := n.le_toInt
  have high := n.toInt_lt
  apply Int32.toInt_inj.mp
  rw [Int64.toInt_toInt32, same]
  apply Int.bmod_eq_of_le
  · omega
  · omega

theorem toInt_toInt32 {value : Int64} (low : -2 ^ 31 ≤ value.toInt) (high : value.toInt < 2 ^ 31) :
    value.toInt32.toInt = value.toInt := by
  rw [Int64.toInt_toInt32]
  apply Int.bmod_eq_of_le
  · omega
  · omega

end Cast

theorem has_member_iff : config.has key ↔
    (∀ status, config.getInt key = .error status → status.code ≠ .notFound) ∧
      ∀ status, config.getString key = .error status → status.code ≠ .notFound := by
  rw [has_iff]
  constructor
  · intro present
    have blamed (status : Status) (blame : config.Blamed key status) : status.code ≠ .notFound := by
      rw [blame, if_neg present]
      decide
    exact ⟨fun status failed => blamed status (getInt_error failed),
      fun status failed => blamed status (getString_error failed)⟩
  · rintro ⟨found, -⟩ absent
    exact found _ (getInt_missing absent) rfl

/-- The accessors are faithful exactly when the key holds no integer outside the range of `int`. -/
theorem faithful_iff (config : Config) (key : Bytes) :
    config.Faithful key ↔ ∀ value : Int64, config.root.find key = some (.integer value) →
      -2 ^ 31 ≤ value.toInt ∧ value.toInt < 2 ^ 31 := by
  constructor
  · intro faithful value found
    obtain ⟨other, again, same⟩ := (faithful.int_value _).mp (getInt_integer found)
    obtain rfl : value = other := by
      rw [found] at again
      simpa using again
    rw [same]
    exact ⟨value.toInt32.le_toInt, value.toInt32.toInt_lt⟩
  · intro inside
    constructor
    case int_value =>
      intro n
      constructor
      · intro read
        obtain ⟨value, found, rfl⟩ := getInt_ok read
        obtain ⟨low, high⟩ := inside value found
        exact ⟨value, found, (toInt_toInt32 low high).symm⟩
      · rintro ⟨value, found, same⟩
        rw [getInt_integer found, toInt32_eq same]
    case int_error => exact fun status => getInt_error
    case string_value => exact fun text => ⟨getString_ok, getString_string⟩
    case string_error => exact fun status => getString_error
    case has_member => exact has_member_iff

/-- A configuration of one member. -/
def single (name : Bytes) (value : SvValue) : Config where
  root := .object fun key => if key = name then some value else none
  rootObject := rfl

/-- A port that no `int` holds is read as another port. -/
theorem wide_port_wraps :
    (single (ascii "port") (.integer 4294975376)).getInt (ascii "port") = .ok 8080 ∧
      ¬ (single (ascii "port") (.integer 4294975376)).Faithful (ascii "port") := by
  have found : (single (ascii "port") (.integer 4294975376)).root.find (ascii "port") =
      some (.integer 4294975376) := by simp [single, SvValue.find]
  have read : (single (ascii "port") (.integer 4294975376)).getInt (ascii "port") = .ok 8080 :=
    getInt_integer found
  refine ⟨read, fun faithful => ?_⟩
  obtain ⟨value, again, same⟩ := (faithful.int_value 8080).mp read
  rw [found] at again
  obtain rfl : 4294975376 = value := by simpa using again
  exact absurd same (by decide)

end Config

end Chmicro
