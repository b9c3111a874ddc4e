import RegionCapture.CommandLine.Disk
import RegionCapture.Main
import RegionCapture.Proofs.Session.Journal
import RegionCapture.Proofs.Session.Ownership
import RegionCapture.Proofs.Session.Preparation
import RegionCapture.Proofs.Session.Runs
import RegionCapture.Recorder
import RegionCapture.Scalar.Exact
import RegionCapture.Session.Run
import RegionCapture.Proofs.Session.Attachment
import RegionCapture.Proofs.Layout.Strips
import RegionCapture.Proofs.Rasterizer.Painting
import RegionCapture.Proofs.Session.Planned
import RegionCapture.Proofs.Session.Picture
import RegionCapture.Proofs.Layout.Packing
import RegionCapture.Proofs.Compositor.Commands
import RegionCapture.Proofs.Affine.Points
import RegionCapture.Proofs.Frame.Views
import RegionCapture.Proofs.Region.Cells
import RegionCapture.Proofs.Region.Placing
import RegionCapture.Proofs.Rasterizer.Sampling
import RegionCapture.Proofs.Session.Prepared
import RegionCapture.Proofs.Session.Places
import RegionCapture.Proofs.Session.Portrait
import RegionCapture.Proofs.Session.Pointers
import RegionCapture.Proofs.Region.Areas
import RegionCapture.Proofs.Orientation.Symmetries
import RegionCapture.Proofs.Region.Copies
import RegionCapture.Proofs.Region.Pixels
import RegionCapture.Proofs.Session.Clicks
import RegionCapture.Proofs.Rasterizer.Requests
import RegionCapture.Proofs.Session.Isolation
import RegionCapture.Proofs.Region.Sizes
import RegionCapture.Proofs.Session.Rooms
import RegionCapture.Proofs.Session.LockedRuns
import RegionCapture.Proofs.Session.InitialLock
import RegionCapture.Proofs.Session.Starting
import RegionCapture.Proofs.Layout.Tiling
import RegionCapture.Proofs.Session.Consistency
import RegionCapture.Proofs.Rasterizer.Scanning
import RegionCapture.Proofs.Json.Numerals
import RegionCapture.Proofs.Decimal.Numerals
import RegionCapture.Proofs.Json.Tokens
import RegionCapture.Proofs.Json.Reading
import RegionCapture.Proofs.Json.Decoding
import RegionCapture.Proofs.Document.Options
import RegionCapture.Proofs.Layout.Capping
import RegionCapture.Proofs.Region.Tilts
import RegionCapture.Proofs.Rasterizer.Coordinates
import RegionCapture.Proofs.Session.Notices
import RegionCapture.Proofs.Text.Pieces
import RegionCapture.Proofs.Text.Numerals
import RegionCapture.Proofs.Rect.Crops
import RegionCapture.Proofs.CommandLine.Options
import RegionCapture.Proofs.Program.Locations
import RegionCapture.Proofs.Scalar.Rounding
import RegionCapture.Proofs.Decimal.Magnitudes
import RegionCapture.Proofs.Json.Doubles
import RegionCapture.Proofs.Document.Geometry
import RegionCapture.Proofs.Session.Documents
