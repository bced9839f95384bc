import PatchCanvas.Bytes
import PatchCanvas.CommandLine.Parallel
import PatchCanvas.CommandLine.Parse
import PatchCanvas.CommandLine.Request
import PatchCanvas.CommandLine.Run
import PatchCanvas.CommandLine.Session
import PatchCanvas.Composite
import PatchCanvas.Config
import PatchCanvas.Config.Decode
import PatchCanvas.Config.Load
import PatchCanvas.Disk
import PatchCanvas.Disk.Steps
import PatchCanvas.Disk.Tree
import PatchCanvas.Disk.Ways
import PatchCanvas.Flat
import PatchCanvas.Grid
import PatchCanvas.Image
import PatchCanvas.Image.Png
import PatchCanvas.Image.Walk
import PatchCanvas.Loader
import PatchCanvas.Main
import PatchCanvas.Palette
import PatchCanvas.Patch.Column
import PatchCanvas.Patch.Draw
import PatchCanvas.Patch.Encode
import PatchCanvas.Patch.Guarded
import PatchCanvas.Patch.Header
import PatchCanvas.Patch.Plain
import PatchCanvas.Patch.Summary
import PatchCanvas.Path
import PatchCanvas.Path.Components
import PatchCanvas.Proofs.Bytes.Fields
import PatchCanvas.Proofs.Bytes.Layout
import PatchCanvas.Proofs.CommandLine.Composite
import PatchCanvas.Proofs.CommandLine.Declared
import PatchCanvas.Proofs.CommandLine.Jobs
import PatchCanvas.Proofs.CommandLine.Outputs
import PatchCanvas.Proofs.CommandLine.Sessions
import PatchCanvas.Proofs.CommandLine.Strict
import PatchCanvas.Proofs.CommandLine.Words
import PatchCanvas.Proofs.Composite.Painter
import PatchCanvas.Proofs.Composite.Placed
import PatchCanvas.Proofs.Composite.Reports
import PatchCanvas.Proofs.Config.Loaded
import PatchCanvas.Proofs.Config.Nearest
import PatchCanvas.Proofs.Disk.Listing
import PatchCanvas.Proofs.Disk.Parents
import PatchCanvas.Proofs.Disk.Reading
import PatchCanvas.Proofs.Disk.SideBySide
import PatchCanvas.Proofs.Disk.Steady
import PatchCanvas.Proofs.Disk.Steps
import PatchCanvas.Proofs.Disk.Tree
import PatchCanvas.Proofs.Disk.Ways
import PatchCanvas.Proofs.Headerless.Flats
import PatchCanvas.Proofs.Headerless.Short
import PatchCanvas.Proofs.Headerless.Stride
import PatchCanvas.Proofs.Headerless.Transpose
import PatchCanvas.Proofs.Image.Export
import PatchCanvas.Proofs.Layers
import PatchCanvas.Proofs.Loader.Dependence
import PatchCanvas.Proofs.Loader.Room
import PatchCanvas.Proofs.Loader.Source
import PatchCanvas.Proofs.Patch.Alone
import PatchCanvas.Proofs.Patch.Drawing
import PatchCanvas.Proofs.Patch.Frame
import PatchCanvas.Proofs.Patch.Guarded
import PatchCanvas.Proofs.Patch.ImageRoundTrip
import PatchCanvas.Proofs.Patch.Inspection
import PatchCanvas.Proofs.Patch.Isolation
import PatchCanvas.Proofs.Patch.Layout
import PatchCanvas.Proofs.Patch.Picture
import PatchCanvas.Proofs.Patch.Plain
import PatchCanvas.Proofs.Patch.Progress
import PatchCanvas.Proofs.Patch.Reads
import PatchCanvas.Proofs.Patch.RoundTrip
import PatchCanvas.Proofs.Patch.Runs
import PatchCanvas.Proofs.Patch.Slices
import PatchCanvas.Proofs.Patch.Trailing
import PatchCanvas.Proofs.Patch.Walk
import PatchCanvas.Proofs.Patch.WellFormed
import PatchCanvas.Proofs.Path.Components
import PatchCanvas.Proofs.Remap.Ranges
import PatchCanvas.Proofs.Resource.Catalogue
import PatchCanvas.Proofs.Resource.Folders
import PatchCanvas.Proofs.Resource.History
import PatchCanvas.Proofs.Resource.Scan
import PatchCanvas.Proofs.Resource.Stems
import PatchCanvas.Proofs.Rounding.FlatSide
import PatchCanvas.Proofs.Rounding.Nearest
import PatchCanvas.Proofs.Text.Case
import PatchCanvas.Proofs.Texture.Painting
import PatchCanvas.Proofs.Texture.Record
import PatchCanvas.Remap
import PatchCanvas.Remap.Ranges
import PatchCanvas.Resource
import PatchCanvas.Resource.Folder
import PatchCanvas.Resource.FolderIndex
import PatchCanvas.Resource.Indexed
import PatchCanvas.Resource.Store
import PatchCanvas.Rounding.SquareRoot
import PatchCanvas.Text.Case
import PatchCanvas.Text.Digits
import PatchCanvas.Texture
import PatchCanvas.Texture.Record
import PatchCanvas.Toml.Document
import PatchCanvas.Toml.Scalar
import PatchCanvas.Toml.Text
import PatchCanvas.Toml.Value
import PatchCanvas.Transpose
import PatchCanvas.Transpose.Lines
import PatchCanvas.Warning
