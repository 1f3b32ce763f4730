/-!
# Payloads

The content of a resource is a list of bytes. Text enters and leaves it as UTF-8: `text?_ofText`
says that a text is read back from its own bytes.
-/

namespace BundleForge

abbrev Bytes := List UInt8

namespace Bytes

def ofText (s : String) : Bytes :=
  s.toByteArray.data.toList

def text? (bytes : Bytes) : Option String :=
  String.fromUTF8? ⟨bytes.toArray⟩

theorem text?_ofText (s : String) : text? (ofText s) = some s := by
  have h : (⟨s.toByteArray.data.toList.toArray⟩ : ByteArray) = s.toByteArray := by simp
  rw [text?, ofText, h]
  simp [String.fromUTF8?, s.isValidUTF8, String.fromUTF8]

def bigEndian (bytes : Bytes) : Nat :=
  bytes.foldl (fun value byte => value * 256 + byte.toNat) 0

def littleEndian (bytes : Bytes) : Nat :=
  bytes.foldr (fun byte value => byte.toNat + 256 * value) 0

def ascii (s : String) : Bytes :=
  s.toList.map fun c => UInt8.ofNat c.toNat

def hex (bytes : Bytes) : String :=
  String.ofList (bytes.flatMap fun byte =>
    [Nat.digitChar (byte.toNat / 16), Nat.digitChar (byte.toNat % 16)])

end Bytes

end BundleForge
