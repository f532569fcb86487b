import FabricLoader.Source.Declaration
import FabricLoader.Source.Header
import FabricLoader.Source.Literal
import FabricLoader.Table.Basic

/-! Tables read from C text. The first array names the table and holds its words; the count, the
width and, if there is one, the control word are single words whose names add a suffix to that
name. The count is never taken from the number of items. -/
namespace FabricLoader

inductive SourceError where
  | noTable
  | missing (name : String)
  | badNumber (literal context : String)
  deriving DecidableEq, Repr

def SourceError.message : SourceError → String
  | noTable => "no `const uint32_t NAME[] = \x7b ... \x7d;` table found"
  | missing name => s!"missing constant {name}"
  | badNumber literal context => s!"invalid literal `{literal}` in {context}"

namespace Source

def number (literal context : List Char) : Except SourceError UInt32 :=
  match literal? literal with
  | some value => .ok value
  | none => .error (.badNumber (String.ofList (Text.trim literal)) (String.ofList context))

/-- The items of an array body; blank pieces are not items. -/
def items (body : List Char) : List (List Char) :=
  ((Text.cutAt ',' body).map Text.trim).filter (!·.isEmpty)

/-- The words of an array, up to the first item that is no literal. -/
def arrayWords (decl : ArrayDecl) : Except SourceError (List UInt32) :=
  (items decl.body).mapM (number · decl.name)

/-- The value of the first word declared under a name. -/
def constant? (words : List WordDecl) (name : List Char) : Except SourceError (Option UInt32) :=
  match words.find? (·.name == name) with
  | some decl => (number decl.token name).map some
  | none => .ok none

def constant (words : List WordDecl) (name : List Char) : Except SourceError UInt32 := do
  match ← constant? words name with
  | some value => .ok value
  | none => .error (.missing (String.ofList name))

def table (text : List Char) : Except SourceError Table := do
  let code := code text
  let some array := firstArray? code | .error .noTable
  let words ← arrayWords array
  let decls := Source.words code
  let count ← constant decls (array.name ++ "_count".toList)
  let width ← constant decls (array.name ++ "_width".toList)
  let control ← constant? decls (array.name ++ "_ctrlReg".toList)
  let fields := fields text
  return {
    name := String.ofList array.name, words, count, width, control
    source := headerValue .source fields
    pins := headerValue .pins fields }

end Source
end FabricLoader
