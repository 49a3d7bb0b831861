import ZxSpectrum.Beeper
import ZxSpectrum.Configuration
import ZxSpectrum.Configuration.GeometryField
import ZxSpectrum.Configuration.Reading
import ZxSpectrum.Error
import ZxSpectrum.Interrupt
import ZxSpectrum.Keyboard
import ZxSpectrum.Machine.Basic
import ZxSpectrum.Machine.Board
import ZxSpectrum.Machine.Debugger
import ZxSpectrum.Machine.Device
import ZxSpectrum.Machine.Options
import ZxSpectrum.Machine.Query
import ZxSpectrum.Machine.Run
import ZxSpectrum.Machine.Setup
import ZxSpectrum.Memory
import ZxSpectrum.Number.Binary
import ZxSpectrum.Number.Bound
import ZxSpectrum.Number.Numeral
import ZxSpectrum.Peripheral
import ZxSpectrum.Peripheral.PortCard
import ZxSpectrum.Processor.Basic
import ZxSpectrum.Processor.BusProgram
import ZxSpectrum.Processor.RegisterName
import ZxSpectrum.Processor.Registers
import ZxSpectrum.Processor.Scripted
import ZxSpectrum.Processor.Signals
import ZxSpectrum.Proofs.Tape.Recording
import ZxSpectrum.Proofs.Tape.Waveform
import ZxSpectrum.Raster.Address
import ZxSpectrum.Raster.Canvas
import ZxSpectrum.Raster.Geometry
import ZxSpectrum.Raster.Palette
import ZxSpectrum.Raster.Timing
import ZxSpectrum.RunLength
import ZxSpectrum.Screen
import ZxSpectrum.Storage
import ZxSpectrum.Storage.Path
import ZxSpectrum.Tape.Block
import ZxSpectrum.Tape.Deck
import ZxSpectrum.Tape.Folder
import ZxSpectrum.Tape.Loader
import ZxSpectrum.Tape.Player
import ZxSpectrum.Tape.Provider
import ZxSpectrum.Tape.Pulse
import ZxSpectrum.Tape.Recorder
import ZxSpectrum.Tape.Shelf
import ZxSpectrum.Tape.Tap
import ZxSpectrum.Tape.Tzx
import ZxSpectrum.Tape.Unreliable
import ZxSpectrum.Text.Blank
import ZxSpectrum.Text.Hexadecimal
import ZxSpectrum.Text.Utf8
import ZxSpectrum.Toml.Document
import ZxSpectrum.Toml.Quoted
import ZxSpectrum.Toml.Scanner
import ZxSpectrum.Toml.Table
import ZxSpectrum.Toml.Value
import ZxSpectrum.UlaPort
import ZxSpectrum.Proofs.Tape.Playback
import ZxSpectrum.Proofs.Tape.Edges
import ZxSpectrum.Proofs.Tape.Reception
import ZxSpectrum.Proofs.Tape.Journal
import ZxSpectrum.Proofs.Tape.SaveSession
import ZxSpectrum.Proofs.StoredFiles
import ZxSpectrum.Proofs.Tape.Records
import ZxSpectrum.Proofs.Tape.SavedFile
import ZxSpectrum.Proofs.Raster.Picture
import ZxSpectrum.Proofs.Raster.Pipeline
import ZxSpectrum.Proofs.Raster.Rendering
import ZxSpectrum.Proofs.Processor.Monotonic
import ZxSpectrum.Proofs.Machine.Backdrop
import ZxSpectrum.Proofs.Machine.Building
import ZxSpectrum.Proofs.Machine.Instruction
import ZxSpectrum.Proofs.Machine.Session
import ZxSpectrum.Proofs.Machine.Path
import ZxSpectrum.Proofs.Machine.Drawing
import ZxSpectrum.Proofs.Machine.Replay
import ZxSpectrum.Proofs.Machine.Clock
import ZxSpectrum.Proofs.Machine.Cuts
import ZxSpectrum.Proofs.Machine.History
import ZxSpectrum.Proofs.Machine.FrameEnd
import ZxSpectrum.Proofs.Machine.Breakpoints
import ZxSpectrum.Proofs.Machine.StopConditions
import ZxSpectrum.Proofs.Machine.Excursion
import ZxSpectrum.Proofs.Machine.StepOver
import ZxSpectrum.Proofs.Machine.Pace
import ZxSpectrum.Proofs.Machine.FrameStarts
import ZxSpectrum.Proofs.Machine.InterruptWindow
import ZxSpectrum.Proofs.Tape.RoundTrip
import ZxSpectrum.Proofs.Machine.InterruptLine
import ZxSpectrum.Proofs.Machine.Veil
import ZxSpectrum.Proofs.Machine.Delivery
import ZxSpectrum.Proofs.Machine.PowerOn
import ZxSpectrum.Proofs.Tape.ReaderForms
import ZxSpectrum.Proofs.Tape.TzxGrammar
import ZxSpectrum.Proofs.Tape.FastLoad
import ZxSpectrum.Proofs.Tape.BlockByBlock
import ZxSpectrum.Proofs.Tape.Moves
import ZxSpectrum.Proofs.Tape.Account
import ZxSpectrum.Proofs.Tape.Protocol
import ZxSpectrum.Proofs.Memory
import ZxSpectrum.Proofs.Tape.Loading
import ZxSpectrum.Proofs.Tape.Verifying
import ZxSpectrum.Proofs.Tape.ProviderView
import ZxSpectrum.Proofs.Tape.TwoFormats
import ZxSpectrum.Proofs.Beeper
import ZxSpectrum.Proofs.Machine.FrameView
import ZxSpectrum.Proofs.Machine.FrameHooks
import ZxSpectrum.Proofs.Machine.FrameRounds
import ZxSpectrum.Proofs.Raster.DisplayArea
import ZxSpectrum.Proofs.Raster.DrawnRange
import ZxSpectrum.Proofs.Raster.Waiting
import ZxSpectrum.Proofs.Raster.PortAccess
import ZxSpectrum.Proofs.Raster.Existence
import ZxSpectrum.Proofs.Raster.Tiling
import ZxSpectrum.Proofs.Tape.BrokenImage
import ZxSpectrum.Proofs.Tape.Completion
import ZxSpectrum.Proofs.Sampling
import ZxSpectrum.Proofs.Tape.Truncation
import ZxSpectrum.Proofs.Keyboard
import ZxSpectrum.Proofs.Interrupt
import ZxSpectrum.Proofs.Tape.FolderFiles
import ZxSpectrum.Proofs.Tape.FolderCalls
import ZxSpectrum.Proofs.Tape.Confinement
import ZxSpectrum.Proofs.Machine.Fixtures
import ZxSpectrum.Proofs.Machine.SharedTiming
import ZxSpectrum.Proofs.Machine.DrawnFrames
