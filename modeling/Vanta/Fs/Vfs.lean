import Mathlib.Algebra.Group.Nat.Defs

namespace Vanta.Fs

inductive VfsError where
  | storage
  | invalidFormat
  | notMounted
  | invalidPath
  | nameTooLong
  | notFound
  | alreadyExists
  | isDirectory
  | notDirectory
  | notEmpty
  | noSpace
  | fileTooLarge
  | redoxFs
  | permissionDenied
  | readOnlyFilesystem
  | loop
  deriving DecidableEq

/-- A call returns a value, returns an error, or stops the kernel on an index out of range. -/
inductive Outcome (α : Type) where
  | ok (value : α)
  | err (error : VfsError)
  | panic
  deriving DecidableEq

end Vanta.Fs
