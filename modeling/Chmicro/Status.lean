import Mathlib.Data.List.Basic

set_option autoImplicit false

namespace Chmicro

inductive StatusCode where
  | ok
  | invalidArgument
  | notFound
  | timeout
  | unavailable
  | cancelled
  | internalError
  deriving DecidableEq, Repr

structure Status where
  code : StatusCode := .ok
  message : String := ""
  deriving DecidableEq, Repr

/-- A result holds a value exactly when its status is not an error. -/
abbrev Result (α : Type) := Except Status α

end Chmicro
