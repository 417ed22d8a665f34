import GlPlayback.Gl.Enumerant
import GlPlayback.Text.AsciiCase

/-!
The targets that a buffer can be bound to.
-/
namespace GlPlayback

inductive BufferTarget where
  | array
  | elementArray
  | copyRead
  | copyWrite
  | transformFeedback
  | uniform
  | pixelPack
  | pixelUnpack
  deriving DecidableEq, Repr

namespace BufferTarget

def all : List BufferTarget :=
  [array, elementArray, copyRead, copyWrite, transformFeedback, uniform, pixelPack, pixelUnpack]

def name : BufferTarget → String
  | array => "ARRAY_BUFFER"
  | elementArray => "ELEMENT_ARRAY_BUFFER"
  | copyRead => "COPY_READ_BUFFER"
  | copyWrite => "COPY_WRITE_BUFFER"
  | transformFeedback => "TRANSFORM_FEEDBACK_BUFFER"
  | uniform => "UNIFORM_BUFFER"
  | pixelPack => "PIXEL_PACK_BUFFER"
  | pixelUnpack => "PIXEL_UNPACK_BUFFER"

def code : BufferTarget → UInt32
  | array => Enumerant.arrayBuffer
  | elementArray => Enumerant.elementArrayBuffer
  | copyRead => Enumerant.copyReadBuffer
  | copyWrite => Enumerant.copyWriteBuffer
  | transformFeedback => Enumerant.transformFeedbackBuffer
  | uniform => Enumerant.uniformBuffer
  | pixelPack => Enumerant.pixelPackBuffer
  | pixelUnpack => Enumerant.pixelUnpackBuffer

def ofToken? (token : String) : Option BufferTarget :=
  all.find? fun target => Text.sameLetters target.name token

def index (target : BufferTarget) : Nat :=
  all.idxOf target

instance : LT BufferTarget :=
  ⟨fun a b => a.index < b.index⟩

instance : DecidableRel ((· < ·) : BufferTarget → BufferTarget → Prop) :=
  fun a b => inferInstanceAs (Decidable (a.index < b.index))

end BufferTarget

end GlPlayback
