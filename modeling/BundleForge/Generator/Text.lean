import BundleForge.Generator
/-!
# Text resources

A resource that is valid UTF-8 becomes a text value that is written out in the generated code.
-/

namespace BundleForge.Generator

structure PreparedText where
  origin : String
  text : String

def text : Generator where
  Memory := OrderedMap String PreparedText
  fresh := .empty
  prepare accessor locale context session memory :=
    match session.resolve context accessor locale with
    | (.error error, session) => (.error error, session, memory)
    | (.ok resource, session) =>
      match resource.bytes.text? with
      | none => (.error (.notText resource.origin), session, memory)
      | some text => (.ok (), session, memory.insert accessor.name ⟨resource.origin, text⟩)
  createAssignment accessor _ context session memory :=
    match memory.get? accessor.name with
    | none => (.error (notPrepared accessor), session, memory)
    | some prepared =>
      (.ok (context.originComment prepared.origin ++
        "::bundle_runtime::TextResourcePrototype::new(" ++ Literal.literal accessor.name ++ ", " ++
          Literal.stringExpression prepared.text ++ ")"), session, memory)
  finish _ session _ := (.ok (), session, .empty)

end BundleForge.Generator
