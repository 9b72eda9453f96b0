import PollWatch.Bytes
import PollWatch.CommandLine.Basic
import PollWatch.CommandLine.Interval
import PollWatch.CommandLine.Message
import PollWatch.CommandLine.Parse
import PollWatch.CommandLine.Token
import PollWatch.Display
import PollWatch.Errno
import PollWatch.Failure
import PollWatch.FileSystem
import PollWatch.FileTree.Basic
import PollWatch.FileTree.Resolve
import PollWatch.Host.Basic
import PollWatch.Host.Change
import PollWatch.Host.Difference
import PollWatch.Host.Lookup
import PollWatch.Log
import PollWatch.LogLevel
import PollWatch.Main
import PollWatch.Outcome
import PollWatch.Path.Basic
import PollWatch.Path.Key
import PollWatch.Program
import PollWatch.Proofs.CommandLine.Settings
import PollWatch.Proofs.CommandLine.Split
import PollWatch.Proofs.CommandLine.Words
import PollWatch.Proofs.FileTree.Apart
import PollWatch.Proofs.FileTree.Applied
import PollWatch.Proofs.FileTree.Expansion
import PollWatch.Proofs.FileTree.Growth
import PollWatch.Proofs.FileTree.Listed
import PollWatch.Proofs.FileTree.Locality
import PollWatch.Proofs.FileTree.Lookup
import PollWatch.Proofs.FileTree.Names
import PollWatch.Proofs.FileTree.Reachable
import PollWatch.Proofs.FileTree.Straight
import PollWatch.Proofs.FileTree.Unlinked
import PollWatch.Proofs.Path.Join
import PollWatch.Proofs.Scan.Account
import PollWatch.Proofs.Scan.Findings
import PollWatch.Proofs.Scan.Frame
import PollWatch.Proofs.Scan.Reached
import PollWatch.Proofs.Scan.Union
import PollWatch.Proofs.Scan.Visited
import PollWatch.Proofs.Session.Books
import PollWatch.Proofs.Session.History
import PollWatch.Proofs.Session.Run
import PollWatch.Proofs.Session.Triggering
import PollWatch.Proofs.Session.Unseen
import PollWatch.Proofs.Timestamp.Newest
import PollWatch.Proofs.Timestamp.Text
import PollWatch.Proofs.Signal.OneFlag
import PollWatch.Scan
import PollWatch.Session.Basic
import PollWatch.Session.Hosted
import PollWatch.Session.Scripted
import PollWatch.Shell.Action
import PollWatch.Shell.Arithmetic
import PollWatch.Shell.Builtin
import PollWatch.Shell.Call
import PollWatch.Shell.Condition
import PollWatch.Shell.Eval
import PollWatch.Shell.Fields
import PollWatch.Shell.Parameter
import PollWatch.Shell.Parser
import PollWatch.Shell.Pattern
import PollWatch.Shell.Print
import PollWatch.Shell.Process
import PollWatch.Shell.Program
import PollWatch.Shell.Reader
import PollWatch.Shell.Signals
import PollWatch.Shell.Syntax
import PollWatch.Shell.Utility
import PollWatch.Shell.Utility.Basic
import PollWatch.Shell.Utility.Calendar
import PollWatch.Shell.Utility.Files
import PollWatch.Shell.Utility.Grep
import PollWatch.Shell.Utility.Regex
import PollWatch.Shell.Utility.Sed
import PollWatch.Shell.Utility.Text
import PollWatch.Signal
import PollWatch.Signal.Channel
import PollWatch.Signal.Handles
import PollWatch.Text.Blank
import PollWatch.Text.Casing
import PollWatch.Text.Lowercase
import PollWatch.Text.Plain
import PollWatch.Text.Quoted
import PollWatch.Text.Similarity
import PollWatch.Text.Unprintable
import PollWatch.Text.Utf8
import PollWatch.Timestamp
import PollWatch.Watch
import PollWatch.Proofs.FileTree.Ancestors
import PollWatch.Proofs.Session.First
import PollWatch.Proofs.Scan.Descent
import PollWatch.Proofs.Scan.Built
import PollWatch.Proofs.FileTree.Kinship
import PollWatch.Proofs.Scan.Retold
import PollWatch.Proofs.Session.Touched
import PollWatch.Proofs.FileTree.Twins
import PollWatch.Proofs.Scan.Link
import PollWatch.Proofs.Program.Exit
import PollWatch.Proofs.FileTree.Cycle
import PollWatch.Proofs.Scan.Limit
import PollWatch.Proofs.FileTree.Canonical
import PollWatch.Proofs.CommandLine.Digits
import PollWatch.Proofs.CommandLine.Rendered
import PollWatch.Proofs.CommandLine.IntervalText
import PollWatch.Proofs.Program.Interval
import PollWatch.Proofs.FileTree.Insertion
import PollWatch.Proofs.Scan.Repeated
import PollWatch.Proofs.LogLevel.Words
