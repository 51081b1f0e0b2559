import Receipt.Main
import Receipt.Proofs.EscPos.Stream
import Receipt.Proofs.Walk.Asked
import Receipt.Proofs.Walk.Edge
import Receipt.Proofs.Convert.Images
import Receipt.Proofs.Walk.LineStart
import Receipt.Proofs.Walk.Purposeful
import Receipt.Proofs.Convert.Frame
import Receipt.Proofs.Document.Dead
import Receipt.Proofs.EscPos.Paper
import Receipt.Proofs.Walk.Spelled
import Receipt.Proofs.EscPos.Legible
import Receipt.Proofs.Convert.Obeyed
import Receipt.Proofs.Bematech.Paper
import Receipt.Proofs.Walk.Paper
import Receipt.Proofs.EscPos.White
import Receipt.Proofs.Convert.Dialects
import Receipt.Proofs.Document.Tidied
import Receipt.Proofs.Document.Wrappers
import Receipt.Proofs.Row.Compose
import Receipt.Proofs.Row.Ink
import Receipt.Proofs.Text.Fewest
import Receipt.Proofs.Row.Widths
import Receipt.Proofs.Walk.Flattened
import Receipt.Proofs.EscPos.Bands
import Receipt.Proofs.Raster.Sound
import Receipt.Proofs.Printer.Inverse
import Receipt.Proofs.Raster.Diffused
import Receipt.Proofs.Raster.Recurrence
import Receipt.Proofs.Raster.Packed
import Receipt.Proofs.Raster.LineArt
import Receipt.Proofs.Raster.Density
import Receipt.Proofs.Text.Wider
import Receipt.Proofs.Document.Merge
import Receipt.Proofs.Steps
import Receipt.Proofs.Json.Shape
import Receipt.Proofs.Document.Fields
import Receipt.Proofs.Document.Described
import Receipt.Proofs.Document.Wire
import Receipt.Proofs.Image.Base64
import Receipt.Proofs.Image.Inline
import Receipt.Proofs.Cli.HexDump
