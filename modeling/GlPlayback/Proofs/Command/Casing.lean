import GlPlayback.Command.Basic
import GlPlayback.Command.Error
import GlPlayback.Command.Token
import Mathlib

/-!
The letter case of the words that commands have for constants. Names, sources and element types are
no such words. A family knows a word in either case or in none.
-/
namespace GlPlayback

namespace Text

theorem map_toLower_lowerAscii (word : String) :
    (lowerAscii word).toList.map Char.toLower = word.toList.map Char.toLower := by
  simp only [lowerAscii, String.toList_ofList, List.map_map, Function.comp_def,
    Char.toLower_toLower_eq_toLower]

theorem lowerAscii_lowerAscii (word : String) : lowerAscii (lowerAscii word) = lowerAscii word :=
  congrArg String.ofList (map_toLower_lowerAscii word)

theorem sameLetters_lowerAscii (name word : String) :
    sameLetters name (lowerAscii word) = sameLetters name word := by
  simp only [sameLetters, map_toLower_lowerAscii]

end Text

open Text

theorem TokenFamily.resolve?_lowerAscii (family : TokenFamily) (word : String) :
    family.resolve? (lowerAscii word) = family.resolve? word := by
  simp only [resolve?, sameLetters_lowerAscii]

theorem BufferTarget.ofToken?_lowerAscii (word : String) :
    ofToken? (lowerAscii word) = ofToken? word := by
  simp only [ofToken?, sameLetters_lowerAscii]

def Creation.lowered : Creation → Creation
  | shader type => .shader (lowerAscii type)
  | what => what

def PixelStoreArg.lowered : PixelStoreArg → PixelStoreArg
  | token word => .token (lowerAscii word)
  | value => value

def ImageArgs.lowered (args : ImageArgs) : ImageArgs :=
  { args with
    internalFormat := lowerAscii args.internalFormat
    format := lowerAscii args.format
    type := lowerAscii args.type }

def PointerArgs.lowered (args : PointerArgs) : PointerArgs :=
  { args with type := lowerAscii args.type }

/-- The action with all its words for constants in lower case. -/
def Action.lowered : Action → Action
  | frontFace mode => .frontFace (lowerAscii mode)
  | cullFace mode => .cullFace (lowerAscii mode)
  | depthFunc func => .depthFunc (lowerAscii func)
  | blendEquation mode => .blendEquation (lowerAscii mode)
  | blendEquationSeparate color alpha =>
      .blendEquationSeparate (lowerAscii color) (lowerAscii alpha)
  | blendFunc source target => .blendFunc (lowerAscii source) (lowerAscii target)
  | blendFuncSeparate f =>
      .blendFuncSeparate ⟨lowerAscii f.x, lowerAscii f.y, lowerAscii f.z, lowerAscii f.w⟩
  | pixelStore name value => .pixelStore (lowerAscii name) value.lowered
  | create what raw => .create what.lowered raw
  | bindTexture target raw => .bindTexture (lowerAscii target) raw
  | generateMipmap target => .generateMipmap (lowerAscii target)
  | texImage2D target image => .texImage2D (lowerAscii target) image.lowered
  | texImage3D target image => .texImage3D (lowerAscii target) image.lowered
  | texStorage2D target levels internalFormat width height =>
      .texStorage2D (lowerAscii target) levels (lowerAscii internalFormat) width height
  | texStorage3D target levels internalFormat width height depth =>
      .texStorage3D (lowerAscii target) levels (lowerAscii internalFormat) width height depth
  | texParameterInt target name value =>
      .texParameterInt (lowerAscii target) (lowerAscii name) value
  | texParameterFloat target name value =>
      .texParameterFloat (lowerAscii target) (lowerAscii name) value
  | texParameterToken target name value =>
      .texParameterToken (lowerAscii target) (lowerAscii name) (lowerAscii value)
  | bindBuffer target raw => .bindBuffer (lowerAscii target) raw
  | bindBufferBase target index raw => .bindBufferBase (lowerAscii target) index raw
  | bufferData target usage update size =>
      .bufferData (lowerAscii target) (lowerAscii usage) update size
  | bufferSubData target start sourceStart limit =>
      .bufferSubData (lowerAscii target) start sourceStart limit
  | bufferSubDataAt target member sourceStart =>
      .bufferSubDataAt (lowerAscii target) member sourceStart
  | createUniformBuffer buffer program block usage =>
      .createUniformBuffer buffer program block (lowerAscii usage)
  | attributePointer args normalized => .attributePointer args.lowered normalized
  | attributeIPointer args => .attributeIPointer args.lowered
  | bindFramebuffer target raw => .bindFramebuffer (lowerAscii target) raw
  | framebufferTexture2D target attachment textureTarget raw level =>
      .framebufferTexture2D (lowerAscii target) (lowerAscii attachment) (lowerAscii textureTarget)
        raw level
  | drawBuffers buffers => .drawBuffers (buffers.map lowerAscii)
  | drawArrays mode first count => .drawArrays (lowerAscii mode) first count
  | drawArraysInstanced mode first count instances =>
      .drawArraysInstanced (lowerAscii mode) first count instances
  | drawElements mode count type offset =>
      .drawElements (lowerAscii mode) count (lowerAscii type) offset
  | drawElementsInstanced mode count type offset instances =>
      .drawElementsInstanced (lowerAscii mode) count (lowerAscii type) offset instances
  | wordless => wordless

namespace Command

def lowered (command : Command) : Command :=
  { command with action := command.action.lowered }

/-- The commands differ at most in the letter case of their words for constants. -/
def SameButCase (command command' : Command) : Prop :=
  command.lowered = command'.lowered

instance (command command' : Command) : Decidable (command.SameButCase command') :=
  inferInstanceAs (Decidable (command.lowered = command'.lowered))

theorem name_lowered (command : Command) : command.lowered.name = command.name := by
  obtain ⟨action, payload⟩ := command
  cases action with
  | create what raw => cases what <;> rfl
  | _ => rfl

theorem SameButCase.name_eq {command command' : Command} (h : command.SameButCase command') :
    command.name = command'.name := by
  rw [← name_lowered, ← command'.name_lowered]
  exact congrArg name h

end Command

namespace CommandError

/-- The error with the word that it quotes, if any, in lower case. -/
def lowered : CommandError → CommandError
  | unknownToken family word => .unknownToken family (lowerAscii word)
  | e => e

/-- The errors differ at most in the letter case of a word that is not known. -/
def SameButCase (e e' : CommandError) : Prop :=
  e.lowered = e'.lowered

end CommandError

end GlPlayback
