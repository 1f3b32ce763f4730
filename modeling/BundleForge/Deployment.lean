import BundleForge.Encoding.Base64
import BundleForge.Encoding.Sha256
import BundleForge.FileName
import BundleForge.FileSystem
import BundleForge.ResourceError
/-!
# Deploying payloads

A payload reaches generated code as a URL. A small one is written into the URL itself; any other goes
to a file of the deployment directory that is named after the digest of the payload, so equal
payloads share a file and a file that exists need not be written again.
-/

namespace BundleForge

inductive Deployment where
  | inline
  | external (dir : Path) (urlPrefix : String)
deriving DecidableEq, Repr

namespace Deployment

/-- Payloads of this many bytes are never inlined. -/
def inlineLimit : Nat := 65536

def isExternal : Deployment → Bool
  | inline => false
  | external .. => true

def dataUrl (mimeType : String) (data : Bytes) : String :=
  "data:" ++ mimeType ++ ";base64," ++ String.ofList (Base64.encode data)

def hashedName (fileName : String) (data : Bytes) : String :=
  let stem := Bytes.hex ((Sha256.digest data).take 16)
  match FileName.extension? fileName with
  | none | some "" => stem
  | some extension => stem ++ "." ++ extension

/-- Writes a payload to the deployment directory unless a file of its name is there. -/
def store (files : FileSystem) (dir target : Path) (data : Bytes) :
    Except ResourceError Unit × FileSystem :=
  if files.pathExists target then (.ok (), files)
  else
    match files.createDirectories dir with
    | (.error cause, files) => (.error (.unwritable dir.text cause), files)
    | (.ok (), files) =>
      match files.write target data with
      | .ok files => (.ok (), files)
      | .error cause => (.error (.unwritable target.text cause), files)

def url (deployment : Deployment) (files : FileSystem) (fileName mimeType : String) (data : Bytes)
    (forceExternal : Bool) : Except ResourceError String × FileSystem :=
  if !forceExternal && data.length < inlineLimit then (.ok (dataUrl mimeType data), files)
  else
    match deployment with
    | .inline => (.error (.inlineLimit fileName data.length inlineLimit), files)
    | .external dir urlPrefix =>
      let name := hashedName fileName data
      match store files dir (dir.join ⟨name⟩) data with
      | (.ok (), files) => (.ok (urlPrefix ++ name), files)
      | (.error error, files) => (.error error, files)

end Deployment

end BundleForge
