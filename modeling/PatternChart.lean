import PatternChart.Diagram.Arrows
import PatternChart.Diagram.Basic
import PatternChart.Diagram.Build
import PatternChart.Diagram.Layout
import PatternChart.Drawing.Coordinate
import PatternChart.Drawing.Shapes
import PatternChart.Drawing.Svg
import PatternChart.Error
import PatternChart.Node.Basic
import PatternChart.Node.Layout
import PatternChart.Node.Literal
import PatternChart.Node.Read
import PatternChart.Number.Binary
import PatternChart.Number.Division
import PatternChart.Number.Measure
import PatternChart.Number.Nearest
import PatternChart.Number.Round
import PatternChart.Number.Shortest
import PatternChart.Render
import PatternChart.Syntax.Basic
import PatternChart.Syntax.Text
import PatternChart.Text.Printable
import PatternChart.Text.Quoted
import PatternChart.Xml.Basic
import PatternChart.Proofs.Paths
import PatternChart.Proofs.Positions
import PatternChart.Proofs.Rendering
import PatternChart.Proofs.Placement
import PatternChart.Proofs.Squeeze
import PatternChart.Proofs.GroupBoxes
import PatternChart.Proofs.Walk
import PatternChart.Proofs.Hover
import PatternChart.Proofs.Parsing
import PatternChart.Proofs.XmlReading
import PatternChart.Proofs.SvgReading
import PatternChart.Proofs.Relayout
import PatternChart.Proofs.Resizing
import PatternChart.Proofs.Sharing
import PatternChart.Proofs.ReadingOrder
import PatternChart.Proofs.LeafBoxes
import PatternChart.Proofs.DiagramForm
import PatternChart.Proofs.Translation
import PatternChart.Proofs.MeasuredLayout
