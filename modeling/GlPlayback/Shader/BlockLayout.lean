import GlPlayback.Shader.Interface

/-!
Where the members of a uniform block lie. Offsets are 32-bit words, and their arithmetic is that
of words.
-/
namespace GlPlayback.BlockLayout

/-- The least multiple of `align` that is not below `n`. -/
def roundUp (n align : UInt32) : UInt32 :=
  (n / align + if n % align = 0 then 0 else 1) * align

/-- Alignment and length in bytes of a member. The elements of an array lie at multiples of 16. -/
def extent (decl : UniformDecl) : UInt32 × UInt32 :=
  let (align, size) := decl.type.layout
  if decl.isArray then (16, roundUp size 16 * elementCount decl.size) else (align, size)

/-- Each member lies at the first aligned place behind the member before it, the first of them
not below `start`. The second value is the end of the last member. -/
def place (start : UInt32) : List UniformDecl → List BlockMember × UInt32
  | [] => ([], start)
  | decl :: rest =>
      let (align, length) := extent decl
      let offset := roundUp start align
      let more := place (offset + length) rest
      (⟨decl, offset⟩ :: more.1, more.2)

/-- The block with these members, its size rounded up to 16 bytes. -/
def block (name : String) (instanceName : Option String) (decls : List UniformDecl) :
    UniformBlock :=
  let placed := place 0 decls
  ⟨name, instanceName, placed.1, roundUp placed.2 16⟩

end GlPlayback.BlockLayout
