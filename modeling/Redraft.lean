import Redraft.Alignment
import Redraft.Command.Arguments
import Redraft.Command.Disk
import Redraft.Command.FileTree
import Redraft.Command.Run
import Redraft.Command.Switch
import Redraft.Eagle.Attribute
import Redraft.Eagle.Drawing
import Redraft.Eagle.Header
import Redraft.Eagle.Library
import Redraft.Eagle.Rotation
import Redraft.Eagle.Schematic
import Redraft.Entries
import Redraft.Failure
import Redraft.File.Expression
import Redraft.File.Identity
import Redraft.File.Sheets
import Redraft.File.Symbols
import Redraft.File.Table
import Redraft.Geometry.Arc
import Redraft.Geometry.Box
import Redraft.Geometry.Crossing
import Redraft.Geometry.Point
import Redraft.Geometry.Segment
import Redraft.Geometry.Turn
import Redraft.Main
import Redraft.Markup.Declaration
import Redraft.Markup.Document
import Redraft.Markup.Element
import Redraft.Markup.Encoding
import Redraft.Markup.Entity
import Redraft.Markup.Name
import Redraft.Markup.Scan
import Redraft.Markup.StartTag
import Redraft.Name.Bus
import Redraft.Name.File
import Redraft.Name.Overbar
import Redraft.Name.Token
import Redraft.Net.LabelWalk
import Redraft.Net.Tracker
import Redraft.Number.Angle
import Redraft.Number.Binary
import Redraft.Number.Decimal
import Redraft.Number.Numeral
import Redraft.Number.Quantity
import Redraft.Number.Rounding
import Redraft.Paper
import Redraft.Project.Blocks
import Redraft.Project.Convert
import Redraft.Project.Files
import Redraft.Project.Tiling
import Redraft.Proofs.AngleSizes
import Redraft.Proofs.Arcs
import Redraft.Proofs.BinaryErrors
import Redraft.Proofs.BinaryLengths
import Redraft.Proofs.BinaryNumbers
import Redraft.Proofs.BinarySizes
import Redraft.Proofs.BlockPlaces
import Redraft.Proofs.BraceDepth
import Redraft.Proofs.BusEntries
import Redraft.Proofs.BusJoining
import Redraft.Proofs.BusMembers
import Redraft.Proofs.CarriedLabels
import Redraft.Proofs.Conversion
import Redraft.Proofs.CrossingOrder
import Redraft.Proofs.CrossingPoints
import Redraft.Proofs.CrossingSets
import Redraft.Proofs.DeviceDrawing
import Redraft.Proofs.Drafting
import Redraft.Proofs.DrawnPieces
import Redraft.Proofs.ExactDistance
import Redraft.Proofs.ExactHits
import Redraft.Proofs.FieldVisibility
import Redraft.Proofs.FileTrees
import Redraft.Proofs.Growth
import Redraft.Proofs.Hierarchy
import Redraft.Proofs.ImportFailures
import Redraft.Proofs.JoinedNets
import Redraft.Proofs.LabelContact
import Redraft.Proofs.LabelCorrection
import Redraft.Proofs.LabelSteps
import Redraft.Proofs.LabelWalks
import Redraft.Proofs.LibraryLookups
import Redraft.Proofs.MeasuredDistance
import Redraft.Proofs.MergedExtents
import Redraft.Proofs.MissingUnits
import Redraft.Proofs.ModerateDrawings
import Redraft.Proofs.NetNames
import Redraft.Proofs.Omissions
import Redraft.Proofs.OverbarReadings
import Redraft.Proofs.Overbars
import Redraft.Proofs.PadNumbers
import Redraft.Proofs.PageCentering
import Redraft.Proofs.PageGrowth
import Redraft.Proofs.PinNames
import Redraft.Proofs.PinPositions
import Redraft.Proofs.Readings
import Redraft.Proofs.References
import Redraft.Proofs.RigidMotion
import Redraft.Proofs.SegmentOwners
import Redraft.Proofs.Setbacks
import Redraft.Proofs.SharedEnds
import Redraft.Proofs.SheetDrawing
import Redraft.Proofs.SheetFiles
import Redraft.Proofs.SheetIndependence
import Redraft.Proofs.ShortenedWires
import Redraft.Proofs.SlashTokens
import Redraft.Proofs.Spellings
import Redraft.Proofs.SupplyPins
import Redraft.Proofs.SymbolNames
import Redraft.Proofs.TokenExpansion
import Redraft.Proofs.Translations
import Redraft.Proofs.UnitTiles
import Redraft.Proofs.WireEnds
import Redraft.Report
import Redraft.Sheet.Basic
import Redraft.Sheet.BusJoin
import Redraft.Sheet.Desk
import Redraft.Sheet.Draw
import Redraft.Sheet.Implied
import Redraft.Sheet.Instance
import Redraft.Sheet.Missing
import Redraft.Sheet.NetLabel
import Redraft.Sheet.Nets
import Redraft.Sheet.Page
import Redraft.Sheet.Plain
import Redraft.Symbol.Basic
import Redraft.Symbol.Device
import Redraft.Symbol.Library
import Redraft.Symbol.Primitive
import Redraft.Text.Blank
import Redraft.Text.Case
import Redraft.Text.Digit
import Redraft.Text.Lines
import Redraft.Text.Printable
import Redraft.Text.Quoted
import Redraft.Text.Ranges
import Redraft.Units
