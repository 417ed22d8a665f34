import GlPlayback.Command.Basic
import GlPlayback.Command.BufferTarget
import GlPlayback.Command.Decode
import GlPlayback.Command.Element
import GlPlayback.Command.Error
import GlPlayback.Command.Token
import GlPlayback.CommandLine
import GlPlayback.Gl.Attempt
import GlPlayback.Gl.Call
import GlPlayback.Gl.Call.Buffer
import GlPlayback.Gl.Call.Draw
import GlPlayback.Gl.Call.Fixed
import GlPlayback.Gl.Call.Program
import GlPlayback.Gl.Call.Texture
import GlPlayback.Gl.Call.VertexArray
import GlPlayback.Gl.Context
import GlPlayback.Gl.Enumerant
import GlPlayback.Gl.Error
import GlPlayback.Gl.Linking
import GlPlayback.Gl.Object
import GlPlayback.Gl.Snapshot
import GlPlayback.Interpreter.Asking
import GlPlayback.Interpreter.Machine
import GlPlayback.Interpreter.Operation
import GlPlayback.Interpreter.Report
import GlPlayback.Json.Basic
import GlPlayback.Json.Decode
import GlPlayback.Json.Literal
import GlPlayback.Json.Reader
import GlPlayback.Linear.Inverse
import GlPlayback.Linear.Matrix4
import GlPlayback.Linear.Transform
import GlPlayback.Logging
import GlPlayback.Main
import GlPlayback.Number.Double
import GlPlayback.Number.Single
import GlPlayback.Proofs.Gl.Footprint
import GlPlayback.Proofs.Gl.Flag
import GlPlayback.Proofs.Gl.Growth
import GlPlayback.Proofs.Gl.Objects
import GlPlayback.Proofs.Interpreter.Coherence
import GlPlayback.Proofs.Interpreter.Conversation
import GlPlayback.Proofs.Interpreter.Performance
import GlPlayback.Proofs.Interpreter.Resolution
import GlPlayback.Proofs.Interpreter.Runs
import GlPlayback.Proofs.Interpreter.Skipping
import GlPlayback.Proofs.Interpreter.Writing
import GlPlayback.Proofs.Outcome
import GlPlayback.Proofs.Resource.Registry
import GlPlayback.Proofs.Store.Order
import GlPlayback.Proofs.Viewer.Entries
import GlPlayback.Proofs.Viewer.Mirror
import GlPlayback.Proofs.Viewer.Persistence
import GlPlayback.Resource.Handle
import GlPlayback.Resource.Journal
import GlPlayback.Resource.Record
import GlPlayback.Resource.Registry
import GlPlayback.Shader.BlockLayout
import GlPlayback.Shader.CompileError
import GlPlayback.Shader.Interface
import GlPlayback.Shader.Reflection
import GlPlayback.Shader.Source
import GlPlayback.Shader.ValueType
import GlPlayback.Store.Table
import GlPlayback.Text.AsciiCase
import GlPlayback.Text.Base64
import GlPlayback.Text.Blank
import GlPlayback.Text.Hex
import GlPlayback.Text.Numeral
import GlPlayback.Trace.Basic
import GlPlayback.Trace.Replay
import GlPlayback.Viewer.Camera
import GlPlayback.Viewer.Config
import GlPlayback.Viewer.Error
import GlPlayback.Viewer.Navigation
import GlPlayback.Viewer.Session
import GlPlayback.Viewer.ViewBlock
import GlPlayback.Proofs.Interpreter.Calling
import GlPlayback.Proofs.Gl.Linked
import GlPlayback.Proofs.Interpreter.Attribution
import GlPlayback.Proofs.Interpreter.Linkage
import GlPlayback.Proofs.Command.Element
import GlPlayback.Proofs.Interpreter.Lasting
import GlPlayback.Proofs.Interpreter.CurrentProgram
import GlPlayback.Proofs.Gl.Bound
import GlPlayback.Proofs.Interpreter.BoundBuffers
import GlPlayback.Proofs.Shader.Reading
import GlPlayback.Proofs.Shader.RoundTrip
import GlPlayback.Proofs.Gl.Unbound
import GlPlayback.Proofs.Interpreter.Sparing
import GlPlayback.Proofs.Viewer.Upload
import GlPlayback.Proofs.Viewer.ViewBlock
import GlPlayback.Proofs.Shader.Naming
import GlPlayback.Proofs.Gl.Joined
import GlPlayback.Proofs.Interpreter.Telling
import GlPlayback.Proofs.Interpreter.Listing
import GlPlayback.Proofs.Interpreter.Introspection
import GlPlayback.Proofs.Interpreter.Frame
import GlPlayback.Proofs.Viewer.Desync
import GlPlayback.Proofs.Shader.Layout
import GlPlayback.Proofs.Interpreter.BlockRecords
import GlPlayback.Proofs.Interpreter.MemberWrite
import GlPlayback.Proofs.Interpreter.BlockBuffer
import GlPlayback.Proofs.Gl.Drafts
import GlPlayback.Proofs.Gl.Relinking
import GlPlayback.Proofs.Gl.Cells
import GlPlayback.Proofs.Interpreter.Relisting
import GlPlayback.Proofs.Interpreter.Cells
import GlPlayback.Proofs.Interpreter.Echoes
import GlPlayback.Proofs.Interpreter.Following
import GlPlayback.Proofs.Interpreter.Repeating
import GlPlayback.Proofs.Interpreter.Steady
import GlPlayback.Proofs.Gl.Rooted
import GlPlayback.Proofs.Interpreter.SecondRun
import GlPlayback.Proofs.Viewer.Replay
import GlPlayback.Proofs.Viewer.Camera
import GlPlayback.Proofs.Viewer.Rejection
import GlPlayback.Proofs.Viewer.Progress
import GlPlayback.Proofs.Trace.Accounting
import GlPlayback.Proofs.Command.Casing
import GlPlayback.Proofs.Interpreter.Casing
import GlPlayback.Proofs.Resource.Casing
import GlPlayback.Proofs.Gl.Placing
import GlPlayback.Proofs.Gl.Merging
import GlPlayback.Proofs.Interpreter.Lookups
import GlPlayback.Proofs.Shader.Offsets
import GlPlayback.Proofs.Shader.MatrixOrder
import GlPlayback.Proofs.Gl.Pointers
import GlPlayback.Proofs.Interpreter.Pointers
import GlPlayback.Proofs.Gl.SubData
import GlPlayback.Proofs.Gl.AttributeSlots
import GlPlayback.Proofs.Gl.Uniforms
import GlPlayback.Proofs.Interpreter.Issuing
import GlPlayback.Proofs.Interpreter.SubData
import GlPlayback.Proofs.Interpreter.UniformUpload
import GlPlayback.Proofs.Gl.Textures
import GlPlayback.Proofs.Gl.Images
import GlPlayback.Proofs.Shader.Lines
import GlPlayback.Proofs.Shader.Places
import GlPlayback.Proofs.Shader.Spacing
import GlPlayback.Proofs.Shader.Heads
import GlPlayback.Proofs.Shader.Fillers
import GlPlayback.Proofs.Viewer.Input
import GlPlayback.Proofs.Command.Arguments
import GlPlayback.Proofs.Shader.Brackets
import GlPlayback.Proofs.Shader.Diagnostics
import GlPlayback.Proofs.Resource.ReadBack
import GlPlayback.Proofs.Resource.Log
import GlPlayback.Proofs.Linear.Inverse
import GlPlayback.Proofs.Shader.Comments
import GlPlayback.Proofs.Resource.PointerGroups
import GlPlayback.Proofs.Shader.Items
