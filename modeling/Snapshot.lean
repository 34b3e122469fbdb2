import Snapshot.Element.Run
import Snapshot.Expression.Plan
import Snapshot.Header.Decode
import Snapshot.Image.Sample
import Snapshot.Main
import Snapshot.Number.Notation
import Snapshot.Output.Buffer
import Snapshot.Proofs.Element.Feed
import Snapshot.Proofs.Element.Packed
import Snapshot.Proofs.Element.Run
import Snapshot.Proofs.Element.Widening
import Snapshot.Proofs.Expression.Canonical
import Snapshot.Proofs.Expression.Grammar
import Snapshot.Proofs.Expression.OwnName
import Snapshot.Proofs.Expression.Parse
import Snapshot.Proofs.Header.Canonical
import Snapshot.Proofs.Header.Claims
import Snapshot.Proofs.Header.Cut
import Snapshot.Proofs.Header.Decoder
import Snapshot.Proofs.Header.Growth
import Snapshot.Proofs.Header.Layout
import Snapshot.Proofs.Header.Places
import Snapshot.Proofs.Header.Regular
import Snapshot.Proofs.Header.Room
import Snapshot.Proofs.Header.Section
import Snapshot.Proofs.Header.StoredIds
import Snapshot.Proofs.Header.Streamed
import Snapshot.Proofs.Header.Tiling
import Snapshot.Proofs.Header.Words
import Snapshot.Proofs.Image.RoundTrip
import Snapshot.Proofs.Number.Exact
import Snapshot.Proofs.Number.Meaning
import Snapshot.Proofs.Number.Nearest
import Snapshot.Proofs.Number.Rounding
import Snapshot.Proofs.Read.Acceptance
import Snapshot.Proofs.Read.Accesses
import Snapshot.Proofs.Read.Atomic
import Snapshot.Proofs.Read.Blame
import Snapshot.Proofs.Read.Delivery
import Snapshot.Proofs.Read.Plan
import Snapshot.Proofs.Read.Records
import Snapshot.Proofs.Read.Sharing
import Snapshot.Proofs.Read.Simple
import Snapshot.Proofs.Read.StoredIds
import Snapshot.Proofs.Read.Work
import Snapshot.Proofs.Record
import Snapshot.Proofs.Session.Accounting
import Snapshot.Proofs.Session.Answered
import Snapshot.Proofs.Session.Atomic
import Snapshot.Proofs.Session.Blame
import Snapshot.Proofs.Session.Books
import Snapshot.Proofs.Session.Frame
import Snapshot.Proofs.Session.Headers
import Snapshot.Proofs.Session.Read
import Snapshot.Proofs.Session.Records
import Snapshot.Proofs.Session.Slots
import Snapshot.Proofs.Session.Sound
import Snapshot.Proofs.Session.Steady
import Snapshot.Proofs.Session.StoredIds
import Snapshot.Proofs.Session.Turns
import Snapshot.Proofs.Session.Waiting
import Snapshot.Proofs.Store.Path
import Snapshot.Proofs.Text.Blank
import Snapshot.Proofs.Text.Utf8
import Snapshot.Proofs.Worker.History
import Snapshot.Proofs.Worker.Occupancy
import Snapshot.Proofs.Worker.Pool
import Snapshot.Proofs.Worker.Rotation
import Snapshot.Proofs.Worker.Sound
import Snapshot.Proofs.Worker.Traffic
import Snapshot.Read.Variable
import Snapshot.Record
import Snapshot.Report
import Snapshot.Session.Step
import Snapshot.Settings.Json
import Snapshot.Store.Catalogue
import Snapshot.Text.Blank
import Snapshot.Text.Quoted
import Snapshot.Text.Utf8
import Snapshot.Worker.Pool
import Snapshot.Worker.Traffic
