import LicenseHeaders.Text.Basic

/-!
# What a file holds

A file holds bytes.  Bytes that spell a text are kept as that text, all others
as they are together with the fact that they spell none, so that each content
has exactly one representation and reading a file as text is a case
distinction.

* `ofBytes_toBytes` — content goes to bytes and back unchanged.
-/

namespace LicenseHeaders

/-- Bytes that are not the encoding of any text. -/
structure Undecodable where
  bytes : ByteArray
  notValid : ¬ bytes.IsValidUTF8

/-- What a file holds: a text, or bytes that spell none. -/
inductive Content where
  | text (t : Text)
  | binary (b : Undecodable)

namespace Content

/-- The bytes of a text. -/
def encode (t : Text) : ByteArray := (String.ofList t).toByteArray

def ofBytes (bytes : ByteArray) : Content :=
  if h : bytes.IsValidUTF8 then .text (String.ofByteArray bytes h).toList
  else .binary ⟨bytes, h⟩

def toBytes : Content → ByteArray
  | .text t => encode t
  | .binary b => b.bytes

def empty : Content := .text []

/-- The content with a text added at its end. -/
def append (c : Content) (added : Text) : Content :=
  match c with
  | .text t => .text (t ++ added)
  | .binary b => ofBytes (b.bytes ++ encode added)

/-- The content as a text, if it is one. -/
def text? : Content → Option Text
  | .text t => some t
  | .binary _ => none

theorem ofBytes_toBytes (c : Content) : ofBytes c.toBytes = c := by
  cases c with
  | text t =>
    have h : (encode t).IsValidUTF8 := (String.ofList t).isValidUTF8
    have back : String.ofByteArray (encode t) h = String.ofList t := rfl
    rw [toBytes, ofBytes, dif_pos h, back, String.toList_ofList]
  | binary b =>
    have h := b.notValid
    simp [toBytes, ofBytes, h]

instance : DecidableEq Undecodable := fun a b =>
  match ByteArray.instDecidableEq a.bytes b.bytes with
  | isTrue h => isTrue (by cases a; cases b; cases h; rfl)
  | isFalse h => isFalse fun e => h (congrArg Undecodable.bytes e)

instance : DecidableEq Content := fun a b =>
  match a, b with
  | .text s, .text t => decidable_of_iff (s = t) (by simp)
  | .binary s, .binary t => decidable_of_iff (s = t) (by simp)
  | .text _, .binary _ => isFalse (by simp)
  | .binary _, .text _ => isFalse (by simp)

end Content

end LicenseHeaders
