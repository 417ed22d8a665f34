import GlPlayback.Shader.BlockLayout
import GlPlayback.Shader.Source

/-!
Reflection reads a shader's interface off its source: every top-level uniform, uniform block and
vertex input counts as used. Nothing below the top level is looked at.
-/
namespace GlPlayback.Shader

open Text

/-- What one declaration adds to an interface. -/
inductive Declaration where
  | input (decl : AttributeDecl)
  | uniform (decl : UniformDecl)
  | block (decl : UniformBlock)
  deriving DecidableEq, Repr

namespace Declaration

def input? : Declaration → Option AttributeDecl
  | input decl => some decl
  | _ => none

def uniform? : Declaration → Option UniformDecl
  | uniform decl => some decl
  | _ => none

def block? : Declaration → Option UniformBlock
  | block decl => some decl
  | _ => none

end Declaration

def interfaceOf (declarations : List Declaration) : ShaderInterface where
  attributes := declarations.filterMap Declaration.input?
  uniforms := declarations.filterMap Declaration.uniform?
  blocks := declarations.filterMap Declaration.block?

structure Declarator where
  name : String
  size : Int32
  isArray : Bool
  deriving DecidableEq, Repr

/-- Reads a name, a name with an array length, or either of them with an initial value. A length
that is no number counts as 1. -/
def declarator? (text : List Char) : Option Declarator :=
  let bare := trim ((splitFirst? '=' text).elim text (·.1))
  if bare.isEmpty then none
  else match splitFirst? '[' bare with
    | none => some ⟨String.ofList bare, 1, false⟩
    | some (name, rest) =>
        let length := trim (rest.reverse.dropWhile (· == ']')).reverse
        some ⟨String.ofList (trim name), (int32? length).getD 1, true⟩

/-- The declarators that follow a type, with commas between them. -/
def declarators (line : Nat) (type : List Char) (rest : List (List Char)) :
    Except CompileError (List Declarator) :=
  (splitWhere (· == ',') (unwords rest)).mapM fun text =>
    match declarator? text with
    | some declarator => .ok declarator
    | none => .error (.unexpected line (String.ofList type))

/-- Words that say nothing about an interface. -/
def qualifiers : List String :=
  ["highp", "mediump", "lowp", "flat", "smooth", "centroid", "invariant", "const"]

def memberQualifiers : List String :=
  "row_major" :: "column_major" :: qualifiers

def wordsWithout (skipped : List String) (text : List Char) : List (List Char) :=
  (words text).filter fun word => !skipped.contains (String.ofList word)

def memberDecls (line : Nat) (statement : List Char) :
    Except CompileError (List UniformDecl) :=
  match wordsWithout memberQualifiers (takeLayout statement).2 with
  | [] => .ok []
  | keyword :: rest =>
      match ValueType.ofKeyword? (String.ofList keyword) with
      | none => .error (.unexpected line (String.ofList keyword))
      | some type => do
          let found ← declarators line keyword rest
          return found.map fun d => ⟨d.name, type, d.size, d.isArray⟩

/-- A uniform block from its name, the text in its braces and the text behind them. -/
def blockOf (line : Nat) (name : List Char) (body behind : List Char) :
    Except CompileError UniformBlock := do
  let instanceName := trim ((splitFirst? '[' behind).elim behind (·.1))
  let decls ← (splitWhere (· == ';') body).mapM (memberDecls line)
  return BlockLayout.block (String.ofList name)
    (if instanceName.isEmpty then none else some (String.ofList instanceName)) decls.flatten

/-- How a declaration outside all blocks starts, where it may matter for an interface. -/
inductive Storage where
  /-- An input of any stage. -/
  | input
  /-- An input of the vertex stage; other stages take it from the stage before. -/
  | incoming
  | uniform
  deriving DecidableEq, Repr

def Storage.ofWord? (word : List Char) : Option Storage :=
  if word = "attribute".toList then some .input
  else if word = "in".toList then some .incoming
  else if word = "uniform".toList then some .uniform
  else none

/-- What a declarator declares: nothing, where the value comes from another stage. -/
def Storage.declare (storage : Storage) (stage : Stage) (location : Option UInt32)
    (type : ValueType) (d : Declarator) : Option Declaration :=
  match storage, stage with
  | .uniform, _ => some (.uniform ⟨d.name, type, d.size, d.isArray⟩)
  | .input, _ | .incoming, .vertex => some (.input ⟨d.name, type, d.size, location⟩)
  | .incoming, .fragment => none

/-- The declarations of a statement without braces. A type that has no code declares nothing. -/
def plainDeclarations (stage : Stage) (line : Nat) (location : Option UInt32)
    (text : List Char) : Except CompileError (List Declaration) :=
  match wordsWithout qualifiers text with
  | [] => .ok []
  | first :: rest =>
      match Storage.ofWord? first, rest with
      | none, _ => .ok []
      | some _, [] => .error (.unexpected line (String.ofList first))
      | some storage, keyword :: rest =>
          match ValueType.ofKeyword? (String.ofList keyword) with
          | none => .ok []
          | some type => do
              let found ← declarators line keyword rest
              return found.filterMap (storage.declare stage location type)

/-- The declarations of a top-level item. Functions, structures and unknown statements declare
nothing. -/
def Item.declarations (stage : Stage) (item : Item) : Except CompileError (List Declaration) :=
  if isFunction item.text then .ok []
  else
    let (location, text) := takeLayout item.text
    match splitFirst? '\x7b' text with
    | none => plainDeclarations stage item.line location text
    | some (head, tail) =>
        match words head with
        | [] => .ok []
        | first :: more =>
            if first ≠ "uniform".toList then .ok []
            else match more, splitLast? '\x7d' tail with
              | name :: _, some (body, behind) => do
                  let block ← blockOf item.line name body behind
                  return [.block block]
              | _, _ => .error (.unexpected item.line "\x7b")

def declarationsOf (stage : Stage) (source : List Char) :
    Except CompileError (List Declaration) := do
  let code ← blankDirectives (stripComments source)
  checkBrackets code
  if !definesMain code then throw .noMain
  let found ← (items code).mapM (Item.declarations stage)
  return found.flatten

def reflect (stage : Stage) (source : String) : Except CompileError ShaderInterface :=
  (declarationsOf stage source.toList).map interfaceOf

end GlPlayback.Shader
