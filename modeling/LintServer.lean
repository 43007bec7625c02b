import LintServer.Proofs.Daemon.Coherence
import LintServer.Proofs.Daemon.Custody
import LintServer.Proofs.Lint.Traffic
import LintServer.Proofs.Session.Closing
import LintServer.Proofs.Session.Convergence
import LintServer.Proofs.Session.Hushed
import LintServer.Proofs.Session.Matching
import LintServer.Proofs.Session.Supersession
import LintServer.Version
import LintServer.Proofs.Json.Scalars
import LintServer.Proofs.Text.Octets
import LintServer.Proofs.Text.Ascii
import LintServer.Proofs.Daemon.FirstLine
import LintServer.Proofs.Json.RoundTrip
import LintServer.Proofs.Daemon.Stages
import LintServer.Proofs.Daemon.Framing
import LintServer.Proofs.Lint.Alone
import LintServer.Proofs.Lint.Modes
import LintServer.Proofs.Session.Isolation
import LintServer.Proofs.Session.Alone
import LintServer.Proofs.Number.Range
import LintServer.Proofs.Finding.Lines
import LintServer.Proofs.Path.Normal
import LintServer.Proofs.Settings.Reading
import LintServer.Proofs.Resolver.Scan
import LintServer.Proofs.Resolver.Memory
import LintServer.Proofs.Resolver.Newest
import LintServer.Proofs.Json.Limits
import LintServer.Proofs.Daemon.Outcomes
import LintServer.Proofs.Daemon.Kills
import LintServer.Proofs.Daemon.Rounds
import LintServer.Proofs.Finding.Grammar
import LintServer.Proofs.Finding.Splits
import LintServer.Proofs.Finding.Quotes
import LintServer.Proofs.Finding.Joined
import LintServer.Proofs.Tool.Streams
import LintServer.Proofs.Workspace.Innermost
import LintServer.Proofs.Daemon.Misreport
import LintServer.Proofs.Daemon.Conduct
import LintServer.Proofs.Settings.Written
import LintServer.Proofs.Uri.RoundTrip
