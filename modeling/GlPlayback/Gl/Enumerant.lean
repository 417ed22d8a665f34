/-!
The numeric constants of the call surface that a context itself tells apart.
-/
namespace GlPlayback.Enumerant

def none : UInt32 := 0
def one : UInt32 := 1

def triangleFan : UInt32 := 0x0006

def colorBufferBit : UInt32 := 0x4000
def depthBufferBit : UInt32 := 0x0100
def stencilBufferBit : UInt32 := 0x0400

def funcAdd : UInt32 := 0x8006

def never : UInt32 := 0x0200
def less : UInt32 := 0x0201
def always : UInt32 := 0x0207

def front : UInt32 := 0x0404
def back : UInt32 := 0x0405
def frontAndBack : UInt32 := 0x0408
def clockwise : UInt32 := 0x0900
def counterClockwise : UInt32 := 0x0901

def unpackAlignment : UInt32 := 0x0CF5
def packAlignment : UInt32 := 0x0D05
def unpackColorspaceConversion : UInt32 := 0x9243

def arrayBuffer : UInt32 := 0x8892
def elementArrayBuffer : UInt32 := 0x8893
def pixelPackBuffer : UInt32 := 0x88EB
def pixelUnpackBuffer : UInt32 := 0x88EC
def uniformBuffer : UInt32 := 0x8A11
def transformFeedbackBuffer : UInt32 := 0x8C8E
def copyReadBuffer : UInt32 := 0x8F36
def copyWriteBuffer : UInt32 := 0x8F37

def dynamicDraw : UInt32 := 0x88E8

def bufferSize : UInt32 := 0x8764
def bufferUsage : UInt32 := 0x8765

def unsignedByte : UInt32 := 0x1401
def unsignedShort : UInt32 := 0x1403
def unsignedInt : UInt32 := 0x1405
def float : UInt32 := 0x1406
def halfFloat : UInt32 := 0x140B

def fragmentShader : UInt32 := 0x8B30
def vertexShader : UInt32 := 0x8B31

def shaderType : UInt32 := 0x8B4F
def deleteStatus : UInt32 := 0x8B80
def compileStatus : UInt32 := 0x8B81
def linkStatus : UInt32 := 0x8B82
def validateStatus : UInt32 := 0x8B83
def attachedShaders : UInt32 := 0x8B85
def activeUniforms : UInt32 := 0x8B86
def activeAttributes : UInt32 := 0x8B89
def activeUniformBlocks : UInt32 := 0x8A36

def uniformType : UInt32 := 0x8A37
def uniformSize : UInt32 := 0x8A38
def uniformBlockIndex : UInt32 := 0x8A3A
def uniformOffset : UInt32 := 0x8A3B
def uniformBlockBinding : UInt32 := 0x8A3F
def uniformBlockDataSize : UInt32 := 0x8A40
def uniformBlockActiveUniforms : UInt32 := 0x8A42
def invalidIndex : UInt32 := 0xFFFFFFFF

def texture2D : UInt32 := 0x0DE1
def texture3D : UInt32 := 0x806F
def texture2DArray : UInt32 := 0x8C1A
def textureCubeMap : UInt32 := 0x8513
def textureCubeMapPositiveX : UInt32 := 0x8515
def textureCubeMapNegativeZ : UInt32 := 0x851A
def texture0 : UInt32 := 0x84C0

def framebuffer : UInt32 := 0x8D40
def readFramebuffer : UInt32 := 0x8CA8
def drawFramebuffer : UInt32 := 0x8CA9

end GlPlayback.Enumerant
