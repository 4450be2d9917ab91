import StackLang.Error
import StackLang.Yaml.Document
import StackLang.Yaml.Record

/-!
# Decoding texts

A text is read as a document and its first document decoded as a record.
-/

set_option autoImplicit false

namespace StackLang.Yaml

/-- The words for a name that names no operation. -/
def unknownNameMessage (name : String) : String := "unknown operation " ++ Text.quoted name

/-- An error of decoding that is only words. -/
def refusal (message : String) : Error := .plain ("yaml: " ++ message) false

/-- The error of a decoding that ended at once. -/
def Stop.error : Stop → Error
  | unknownName line name =>
    .within ("line " ++ toString line) (.plain (unknownNameMessage name) false) false
  | wrongTag meant text tag =>
    refusal ("cannot decode " ++ meant ++ " `" ++ text ++ "` as a " ++ tag)
  | notBase64 => refusal "!!binary value contains invalid base64 data"
  | badMerge => refusal "map merge requires map or sequence of maps as the value"
  | selfContained name => refusal ("anchor '" ++ name ++ "' value contains itself")
  | excessive => refusal "document contains excessive aliasing"
  | badKey shown => refusal ("invalid map key: " ++ shown)
  | compoundKey type => .misuse (.compoundKey type)
  | nullRecord => .misuse .nullRecord

/-- The record of the first document of a text in octets, starting from `value`. -/
def Record.decodeText {ρ : Type} (r : Record ρ) (value : ρ) (octets : List UInt8) :
    Except Error ρ :=
  match Document.read octets with
  | none => .error .yamlMalformed
  | some none => .error .endOfInput
  | some (some d) =>
    match r.decode value d with
    | .error stop => .error stop.error
    | .ok (v, []) => .ok v
    | .ok (_, problems) => .error (.yamlProblems problems)

end StackLang.Yaml
