import BundleForge.Generator
import BundleForge.Mime
/-!
# Data resources

Any payload becomes a value that is addressed by a URL. Its MIME type is the declared one, else the
one its file name suggests.
-/

namespace BundleForge.Generator

structure DeployedData where
  origin : String
  urlExpression : String

def data : Generator where
  Memory := OrderedMap String DeployedData
  fresh := .empty
  prepare accessor locale context session memory :=
    match session.resolve context accessor locale with
    | (.error error, session) => (.error error, session, memory)
    | (.ok resource, session) =>
      let mimeType := accessor.mimeType.getD (Mime.ofFileName resource.fileName)
      match session.deploy context resource.fileName mimeType resource.bytes (!accessor.embed) with
      | (.error error, session) => (.error error, session, memory)
      | (.ok url, session) => (.ok (), session, memory.insert accessor.name ⟨resource.origin, url⟩)
  createAssignment accessor _ context session memory :=
    match memory.get? accessor.name with
    | none => (.error (notPrepared accessor), session, memory)
    | some deployed =>
      (.ok (context.originComment deployed.origin ++
        "::bundle_runtime::DataResourcePrototype::new(" ++ Literal.literal accessor.name ++ ", " ++
          deployed.urlExpression ++ ")"), session, memory)
  finish _ session _ := (.ok (), session, .empty)

end BundleForge.Generator
