import GlPlayback.Shader.Reflection
import GlPlayback.Proofs.Text.Cutting
import GlPlayback.Proofs.Text.Numeral

/-!
Vertex shaders that declare and do nothing else: the text of a list of declarations, and the
interface that the list stands for.
-/
namespace GlPlayback.Shader

open Text

def isNameChar (c : Char) : Bool :=
  c.isAlphanum || c == '_'

/-- ASCII letters, digits and underscores, the first of them no digit. -/
def isIdentifier : List Char → Bool
  | [] => false
  | c :: rest => !c.isDigit && (c :: rest).all isNameChar

/-- A name. Words that reflection passes over in front of a type are no names. -/
structure Identifier where
  text : String
  wellFormed : isIdentifier text.toList = true
  unskipped : text ∉ memberQualifiers

/-- One of the spellings of a type. -/
structure TypeName where
  text : String
  type : ValueType
  known : (text, type) ∈ ValueType.keywords

/-- What a statement or a block declares under one name. Without a length it is no array. -/
structure Variable where
  typeName : TypeName
  name : Identifier
  length : Option (Fin 0x80000000)

namespace Variable

def declarator (v : Variable) : List Char :=
  v.name.text.toList ++ v.length.elim [] fun n => '[' :: (decimal n ++ [']'])

def text (v : Variable) : List Char :=
  v.typeName.text.toList ++ ' ' :: v.declarator

def size (v : Variable) : Int32 :=
  v.length.elim 1 fun n => Int32.ofNat n

def uniformDecl (v : Variable) : UniformDecl :=
  ⟨v.name.text, v.typeName.type, v.size, v.length.isSome⟩

def attributeDecl (v : Variable) (location : Option UInt32) : AttributeDecl :=
  ⟨v.name.text, v.typeName.type, v.size, location⟩

end Variable

def Storage.word : Storage → List Char
  | input => "attribute".toList
  | incoming => "in".toList
  | uniform => "uniform".toList

inductive Statement where
  /-- A loose uniform or an input. A location says nothing about a uniform. -/
  | plain (storage : Storage) (location : Option UInt32) (declared : Variable)
  | block (std140 : Bool) (name : Identifier) (instanceName : Option Identifier)
      (members : List Variable)

/-- Puts a layout qualifier in front, if there is one. -/
def withLayout (qualifiers : Option (List Char)) (text : List Char) : List Char :=
  qualifiers.elim text fun q => "layout".toList ++ '(' :: (q ++ ')' :: ' ' :: text)

namespace Statement

def blockBody (members : List Variable) : List Char :=
  members.flatMap (fun v => ' ' :: v.text ++ [';']) ++ [' ']

def blockTail (instanceName : Option Identifier) : List Char :=
  instanceName.elim [] fun i => ' ' :: i.text.toList

/-- What the layout qualifier says, if there is one. -/
def qualifiers : Statement → Option (List Char)
  | plain _ location _ => location.map fun n => "location = ".toList ++ decimal n.toNat
  | block std140 _ _ _ => if std140 then some "std140".toList else none

/-- The statement without layout qualifier and semicolon. -/
def content : Statement → List Char
  | plain storage _ v => storage.word ++ ' ' :: v.text
  | block _ name instanceName members =>
      Storage.uniform.word ++ ' ' :: (name.text.toList ++ ' ' :: '\x7b' ::
        (blockBody members ++ '\x7d' :: blockTail instanceName))

/-- The statement without its semicolon. -/
def text (s : Statement) : List Char :=
  withLayout s.qualifiers s.content

def line (s : Statement) : List Char :=
  s.text ++ [';']

def blockDeclared (name : Identifier) (instanceName : Option Identifier)
    (members : List Variable) : UniformBlock :=
  BlockLayout.block name.text (instanceName.map (·.text)) (members.map Variable.uniformDecl)

def attribute? : Statement → Option AttributeDecl
  | plain .uniform _ _ => none
  | plain _ location v => some (v.attributeDecl location)
  | block .. => none

def uniform? : Statement → Option UniformDecl
  | plain .uniform _ v => some v.uniformDecl
  | _ => none

def block? : Statement → Option UniformBlock
  | plain .. => none
  | block _ name instanceName members => some (blockDeclared name instanceName members)

end Statement

def mainText : List Char :=
  "void main() \x7b\x7d".toList

/-- The statements in their order, one on a line, and then an empty `main`. -/
def print (statements : List Statement) : String :=
  String.ofList (statements.flatMap (fun s => s.line ++ ['\n']) ++ mainText)

/-- What the statements declare, in their order. -/
def declared (statements : List Statement) : ShaderInterface where
  attributes := statements.filterMap Statement.attribute?
  uniforms := statements.filterMap Statement.uniform?
  blocks := statements.filterMap Statement.block?

end GlPlayback.Shader
