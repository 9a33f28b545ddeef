/-
What can go wrong, and how it is worded.

A failure is a value of one of three types: of the key, of the store, or of an operation as a whole,
which wraps the first two. The wording of each is a function of the value, so that code decides by
constructors and only the outermost layer ever looks at a text.
-/
import FieldVault.FieldRef

set_option autoImplicit false

namespace FieldVault

/-! ## The key -/

/-- Why no key could be had. -/
inductive KeyError where
  /-- Neither a secret nor a seed is configured. -/
  | missing
  /-- The secret has a number of bytes that no cipher takes. -/
  | invalidLength (length : Nat)
  /-- The place the secret comes from cannot be asked. -/
  | unavailable (reason : String)
  /-- The file the secret is kept in cannot be read. -/
  | unreadable (reason : String)
deriving DecidableEq

namespace KeyError

/-- The name of the cipher in messages. -/
def algorithm : String := "AES/CBC/PKCS5Padding"

/-- The wording of a key failure. -/
def message : KeyError → String
  | missing =>
    "no encryption key configured and no database URL to derive one from; set PII_ENCKEY explicitly"
  | invalidLength length => s!"invalid encryption key for algorithm {algorithm} ({length} bytes)"
  | unavailable reason => "key source unavailable: " ++ reason
  | unreadable reason => "I/O error: " ++ reason

/-- What lies behind a key failure, if anything does. -/
def cause? : KeyError → Option String
  | unreadable reason => some reason
  | _ => none

end KeyError

/-! ## The store -/

/-- Why the store refused an operation. -/
inductive StoreError where
  /-- There is no such owner. -/
  | ownerNotFound (id : OwnerId)
  /-- A unit of work crashed, and the store serves nobody any more. -/
  | poisoned
  /-- A failure of the store's own. -/
  | backend (reason : String)
deriving DecidableEq

/-- The wording of a store failure. -/
def StoreError.message : StoreError → String
  | .ownerNotFound id => "owner not found: " ++ id
  | .poisoned => "store lock poisoned"
  | .backend reason => reason

/-! ## Operations -/

/-- Why an operation failed. -/
inductive Error where
  | key (error : KeyError)
  /-- A token is well formed but does not decrypt to a text. -/
  | decryptionFailed (reason : String)
  /-- A value is marked as a token and is none. -/
  | malformedToken (reason : String)
  /-- A decrypted value does not belong to the lookup hash beside it. -/
  | integrity (field : FieldRef)
  | store (error : StoreError)
  /-- The settings cannot be understood. -/
  | config (reason : String)
  /-- A file cannot be read or written. -/
  | io (reason : String)
deriving DecidableEq

namespace Error

/-- The wording of a failure. -/
def message : Error → String
  | key error => "key configuration error: " ++ error.message
  | decryptionFailed reason => "decryption failed: " ++ reason
  | malformedToken reason => "malformed token: " ++ reason
  | integrity field => field.failureText
  | store error => "store error: " ++ error.message
  | config reason => "configuration error: " ++ reason
  | io reason => "I/O error: " ++ reason

/-- What lies behind a failure, the nearest cause first. -/
def causes : Error → List String
  | key error => error.message :: error.cause?.toList
  | store error => [error.message]
  | io reason => [reason]
  | _ => []

/-- A failure to get hold of a key. -/
def isKey : Error → Bool
  | key _ => true
  | _ => false

end Error

end FieldVault
