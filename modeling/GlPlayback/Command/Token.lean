import GlPlayback.Text.AsciiCase

/-!
The words that commands use for numeric constants, one closed family for each place a constant can
stand in. Words match without regard to the case of ASCII letters.
-/
namespace GlPlayback

structure TokenFamily where
  /-- What the family's words stand for. -/
  label : String
  tokens : List (String × UInt32)
  deriving DecidableEq, Repr

namespace TokenFamily

def resolve? (family : TokenFamily) (token : String) : Option UInt32 :=
  (family.tokens.find? fun entry => Text.sameLetters entry.1 token).map (·.2)

def drawMode : TokenFamily where
  label := "draw mode"
  tokens :=
    [("POINTS", 0x0000), ("LINES", 0x0001), ("LINE_LOOP", 0x0002), ("LINE_STRIP", 0x0003),
     ("TRIANGLES", 0x0004), ("TRIANGLE_STRIP", 0x0005), ("TRIANGLE_FAN", 0x0006)]

def indexType : TokenFamily where
  label := "index type"
  tokens :=
    [("UNSIGNED_BYTE", 0x1401), ("UNSIGNED_SHORT", 0x1403), ("UNSIGNED_INT", 0x1405),
     ("uint8", 0x1401), ("uint16", 0x1403), ("uint32", 0x1405)]

def frontFace : TokenFamily where
  label := "front face"
  tokens :=
    [("CW", 0x0900), ("CCW", 0x0901)]

def cullFaceMode : TokenFamily where
  label := "cull face"
  tokens :=
    [("FRONT", 0x0404), ("BACK", 0x0405), ("FRONT_AND_BACK", 0x0408)]

def compareFunc : TokenFamily where
  label := "compare function"
  tokens :=
    [("NEVER", 0x0200), ("LESS", 0x0201), ("EQUAL", 0x0202), ("LEQUAL", 0x0203),
     ("GREATER", 0x0204), ("NOTEQUAL", 0x0205), ("GEQUAL", 0x0206), ("ALWAYS", 0x0207)]

def blendEquation : TokenFamily where
  label := "blend equation"
  tokens :=
    [("FUNC_ADD", 0x8006), ("FUNC_SUBTRACT", 0x800A), ("FUNC_REVERSE_SUBTRACT", 0x800B),
     ("MIN", 0x8007), ("MAX", 0x8008)]

def blendFactor : TokenFamily where
  label := "blend factor"
  tokens :=
    [("ZERO", 0x0000), ("ONE", 0x0001), ("SRC_COLOR", 0x0300), ("ONE_MINUS_SRC_COLOR", 0x0301),
     ("DST_COLOR", 0x0306), ("ONE_MINUS_DST_COLOR", 0x0307), ("SRC_ALPHA", 0x0302),
     ("ONE_MINUS_SRC_ALPHA", 0x0303), ("DST_ALPHA", 0x0304), ("ONE_MINUS_DST_ALPHA", 0x0305),
     ("CONSTANT_COLOR", 0x8001), ("ONE_MINUS_CONSTANT_COLOR", 0x8002),
     ("CONSTANT_ALPHA", 0x8003), ("ONE_MINUS_CONSTANT_ALPHA", 0x8004),
     ("SRC_ALPHA_SATURATE", 0x0308)]

def usageHint : TokenFamily where
  label := "buffer usage"
  tokens :=
    [("STATIC_DRAW", 0x88E4), ("DYNAMIC_DRAW", 0x88E8), ("STREAM_DRAW", 0x88E0),
     ("STATIC_READ", 0x88E5), ("DYNAMIC_READ", 0x88E9), ("STREAM_READ", 0x88E1),
     ("STATIC_COPY", 0x88E6), ("DYNAMIC_COPY", 0x88EA), ("STREAM_COPY", 0x88E2)]

def shaderKind : TokenFamily where
  label := "shader type"
  tokens :=
    [("VERTEX_SHADER", 0x8B31), ("FRAGMENT_SHADER", 0x8B30)]

def vertexType : TokenFamily where
  label := "vertex attribute type"
  tokens :=
    [("BYTE", 0x1400), ("UNSIGNED_BYTE", 0x1401), ("SHORT", 0x1402), ("UNSIGNED_SHORT", 0x1403),
     ("INT", 0x1404), ("UNSIGNED_INT", 0x1405), ("FLOAT", 0x1406), ("HALF_FLOAT", 0x140B),
     ("INT_2_10_10_10_REV", 0x8D9F), ("UNSIGNED_INT_2_10_10_10_REV", 0x8368)]

def textureTarget : TokenFamily where
  label := "texture target"
  tokens :=
    [("TEXTURE_2D", 0x0DE1), ("TEXTURE_3D", 0x806F), ("TEXTURE_2D_ARRAY", 0x8C1A),
     ("TEXTURE_CUBE_MAP", 0x8513), ("TEXTURE_CUBE_MAP_POSITIVE_X", 0x8515),
     ("TEXTURE_CUBE_MAP_NEGATIVE_X", 0x8516), ("TEXTURE_CUBE_MAP_POSITIVE_Y", 0x8517),
     ("TEXTURE_CUBE_MAP_NEGATIVE_Y", 0x8518), ("TEXTURE_CUBE_MAP_POSITIVE_Z", 0x8519),
     ("TEXTURE_CUBE_MAP_NEGATIVE_Z", 0x851A)]

def internalFormat : TokenFamily where
  label := "internal format"
  tokens :=
    [("RGBA", 0x1908), ("RGB", 0x1907), ("ALPHA", 0x1906), ("LUMINANCE", 0x1909),
     ("LUMINANCE_ALPHA", 0x190A), ("DEPTH_COMPONENT", 0x1902), ("DEPTH_STENCIL", 0x84F9),
     ("R8", 0x8229), ("RG8", 0x822B), ("RGB8", 0x8051), ("RGBA8", 0x8058), ("SRGB8", 0x8C41),
     ("SRGB8_ALPHA8", 0x8C43), ("RGB10_A2", 0x8059), ("R11F_G11F_B10F", 0x8C3A),
     ("R16F", 0x822D), ("RG16F", 0x822F), ("RGB16F", 0x881B), ("RGBA16F", 0x881A),
     ("R32F", 0x822E), ("RG32F", 0x8230), ("RGB32F", 0x8815), ("RGBA32F", 0x8814),
     ("R8UI", 0x8232), ("R32I", 0x8235), ("R32UI", 0x8236), ("RGBA8UI", 0x8D7C),
     ("DEPTH_COMPONENT16", 0x81A5), ("DEPTH_COMPONENT24", 0x81A6),
     ("DEPTH_COMPONENT32F", 0x8CAC), ("DEPTH24_STENCIL8", 0x88F0), ("DEPTH32F_STENCIL8", 0x8CAD)]

def pixelFormat : TokenFamily where
  label := "pixel format"
  tokens :=
    [("RGBA", 0x1908), ("RGB", 0x1907), ("ALPHA", 0x1906), ("LUMINANCE", 0x1909),
     ("LUMINANCE_ALPHA", 0x190A), ("RED", 0x1903), ("RG", 0x8227), ("RED_INTEGER", 0x8D94),
     ("RG_INTEGER", 0x8228), ("RGB_INTEGER", 0x8D98), ("RGBA_INTEGER", 0x8D99),
     ("DEPTH_COMPONENT", 0x1902), ("DEPTH_STENCIL", 0x84F9)]

def pixelType : TokenFamily where
  label := "pixel type"
  tokens :=
    [("UNSIGNED_BYTE", 0x1401), ("BYTE", 0x1400), ("UNSIGNED_SHORT", 0x1403), ("SHORT", 0x1402),
     ("UNSIGNED_INT", 0x1405), ("INT", 0x1404), ("HALF_FLOAT", 0x140B), ("FLOAT", 0x1406),
     ("UNSIGNED_SHORT_5_6_5", 0x8363), ("UNSIGNED_SHORT_4_4_4_4", 0x8033),
     ("UNSIGNED_SHORT_5_5_5_1", 0x8034), ("UNSIGNED_INT_2_10_10_10_REV", 0x8368),
     ("UNSIGNED_INT_10F_11F_11F_REV", 0x8C3B), ("UNSIGNED_INT_5_9_9_9_REV", 0x8C3E),
     ("UNSIGNED_INT_24_8", 0x84FA), ("FLOAT_32_UNSIGNED_INT_24_8_REV", 0x8DAD)]

def textureParameter : TokenFamily where
  label := "texture parameter"
  tokens :=
    [("TEXTURE_MIN_FILTER", 0x2801), ("TEXTURE_MAG_FILTER", 0x2800), ("TEXTURE_WRAP_S", 0x2802),
     ("TEXTURE_WRAP_T", 0x2803), ("TEXTURE_WRAP_R", 0x8072), ("TEXTURE_BASE_LEVEL", 0x813C),
     ("TEXTURE_MAX_LEVEL", 0x813D), ("TEXTURE_MIN_LOD", 0x813A), ("TEXTURE_MAX_LOD", 0x813B),
     ("TEXTURE_COMPARE_MODE", 0x884C), ("TEXTURE_COMPARE_FUNC", 0x884D)]

def textureParameterValue : TokenFamily where
  label := "texture parameter value"
  tokens :=
    [("NEAREST", 0x2600), ("LINEAR", 0x2601), ("NEAREST_MIPMAP_NEAREST", 0x2700),
     ("LINEAR_MIPMAP_NEAREST", 0x2701), ("NEAREST_MIPMAP_LINEAR", 0x2702),
     ("LINEAR_MIPMAP_LINEAR", 0x2703), ("REPEAT", 0x2901), ("CLAMP_TO_EDGE", 0x812F),
     ("MIRRORED_REPEAT", 0x8370), ("COMPARE_REF_TO_TEXTURE", 0x884E), ("NONE", 0x0000),
     ("NEVER", 0x0200), ("LESS", 0x0201), ("EQUAL", 0x0202), ("LEQUAL", 0x0203),
     ("GREATER", 0x0204), ("NOTEQUAL", 0x0205), ("GEQUAL", 0x0206), ("ALWAYS", 0x0207)]

def pixelStoreParameter : TokenFamily where
  label := "pixel store parameter"
  tokens :=
    [("PACK_ALIGNMENT", 0x0D05), ("UNPACK_ALIGNMENT", 0x0CF5), ("UNPACK_ROW_LENGTH", 0x0CF2),
     ("UNPACK_SKIP_ROWS", 0x0CF3), ("UNPACK_SKIP_PIXELS", 0x0CF4),
     ("UNPACK_SKIP_IMAGES", 0x806D), ("UNPACK_IMAGE_HEIGHT", 0x806E),
     ("UNPACK_FLIP_Y_WEBGL", 0x9240), ("UNPACK_PREMULTIPLY_ALPHA_WEBGL", 0x9241),
     ("UNPACK_COLORSPACE_CONVERSION_WEBGL", 0x9243)]

def colorspaceConversion : TokenFamily where
  label := "colorspace conversion"
  tokens :=
    [("BROWSER_DEFAULT_WEBGL", 0x9244), ("NONE", 0x0000)]

def framebufferTarget : TokenFamily where
  label := "framebuffer target"
  tokens :=
    [("FRAMEBUFFER", 0x8D40), ("READ_FRAMEBUFFER", 0x8CA8), ("DRAW_FRAMEBUFFER", 0x8CA9)]

def attachment : TokenFamily where
  label := "framebuffer attachment"
  tokens :=
    [("COLOR_ATTACHMENT0", 0x8CE0), ("COLOR_ATTACHMENT1", 0x8CE1), ("COLOR_ATTACHMENT2", 0x8CE2),
     ("COLOR_ATTACHMENT3", 0x8CE3), ("COLOR_ATTACHMENT4", 0x8CE4), ("COLOR_ATTACHMENT5", 0x8CE5),
     ("COLOR_ATTACHMENT6", 0x8CE6), ("COLOR_ATTACHMENT7", 0x8CE7), ("DEPTH_ATTACHMENT", 0x8D00),
     ("STENCIL_ATTACHMENT", 0x8D20), ("DEPTH_STENCIL_ATTACHMENT", 0x821A)]

def drawBuffer : TokenFamily where
  label := "draw buffer"
  tokens :=
    [("NONE", 0x0000), ("BACK", 0x0405), ("COLOR_ATTACHMENT0", 0x8CE0),
     ("COLOR_ATTACHMENT1", 0x8CE1), ("COLOR_ATTACHMENT2", 0x8CE2), ("COLOR_ATTACHMENT3", 0x8CE3),
     ("COLOR_ATTACHMENT4", 0x8CE4), ("COLOR_ATTACHMENT5", 0x8CE5), ("COLOR_ATTACHMENT6", 0x8CE6),
     ("COLOR_ATTACHMENT7", 0x8CE7)]

end TokenFamily

end GlPlayback
