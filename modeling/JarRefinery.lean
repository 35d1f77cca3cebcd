import JarRefinery.Archive.Content
import JarRefinery.Archive.Directory
import JarRefinery.Archive.Entry
import JarRefinery.Archive.Name
import JarRefinery.Archive.Writer
import JarRefinery.Artifact
import JarRefinery.Bytes
import JarRefinery.Checksum.BlockHash
import JarRefinery.Checksum.Crc32
import JarRefinery.Checksum.Sha1
import JarRefinery.Checksum.Sha256
import JarRefinery.CommandLine.Command
import JarRefinery.CommandLine.Grammar
import JarRefinery.CommandLine.Session
import JarRefinery.Compress.Bits
import JarRefinery.Compress.Deflate
import JarRefinery.Compress.Gzip
import JarRefinery.Compress.Huffman
import JarRefinery.Compress.Inflate
import JarRefinery.Decimal.Binary64
import JarRefinery.Decimal.Shortest
import JarRefinery.Decompile
import JarRefinery.ErrorKind
import JarRefinery.Event
import JarRefinery.Fault
import JarRefinery.FileDigest
import JarRefinery.FileTree
import JarRefinery.Http.Client
import JarRefinery.Http.Url
import JarRefinery.Json.Literal
import JarRefinery.Json.Printer
import JarRefinery.Json.Reader
import JarRefinery.Json.Value
import JarRefinery.Log
import JarRefinery.Machine.Basic
import JarRefinery.Machine.Call
import JarRefinery.Machine.Format
import JarRefinery.Machine.Job
import JarRefinery.Machine.Program
import JarRefinery.Machine.Script
import JarRefinery.Machine.Shell
import JarRefinery.Main
import JarRefinery.Mapping.Container
import JarRefinery.Mapping.Coordinate
import JarRefinery.Mapping.Header
import JarRefinery.Mapping.Provide
import JarRefinery.Mapping.Provider
import JarRefinery.Mapping.Publication
import JarRefinery.Mapping.Set
import JarRefinery.Package
import JarRefinery.Path
import JarRefinery.Pipeline
import JarRefinery.Proofs.Evaluation
import JarRefinery.Release.Fetch
import JarRefinery.Release.Manifest
import JarRefinery.Release.Metadata
import JarRefinery.Release.Resolve
import JarRefinery.Remap
import JarRefinery.Report
import JarRefinery.Run
import JarRefinery.RunState
import JarRefinery.Schema.Checked
import JarRefinery.Schema.Number
import JarRefinery.Settings.Basic
import JarRefinery.Settings.Dotenv
import JarRefinery.Settings.Load
import JarRefinery.Stage.Basic
import JarRefinery.Stage.Execution
import JarRefinery.Stage.Order
import JarRefinery.Strip
import JarRefinery.Text.Blank
import JarRefinery.Text.Charset
import JarRefinery.Text.CodePage
import JarRefinery.Text.Encoding
import JarRefinery.Text.Lines
import JarRefinery.Text.Printable
import JarRefinery.Text.Quoted
import JarRefinery.Text.Split
import JarRefinery.Text.UpperCase
import JarRefinery.Text.Utf8
import JarRefinery.TextFile
import JarRefinery.Tool.Call
import JarRefinery.Tool.Check
import JarRefinery.Tool.Published
import JarRefinery.Workspace
import JarRefinery.World
import JarRefinery.Xml.Declaration
import JarRefinery.Xml.Document
import JarRefinery.Xml.Dtd
import JarRefinery.Xml.Element
import JarRefinery.Xml.Flaw
import JarRefinery.Xml.NameChar
import JarRefinery.Xml.Prolog
import JarRefinery.Xml.PrologToken
import JarRefinery.Xml.Scan
import JarRefinery.Xml.Token
import JarRefinery.Proofs.Files.Lookup
import JarRefinery.Proofs.Files.Change
import JarRefinery.Proofs.Discipline
import JarRefinery.Proofs.Requests
import JarRefinery.Proofs.Files.Sibling
import JarRefinery.Proofs.Producers
import JarRefinery.Proofs.Atomicity
import JarRefinery.Proofs.Operations
import JarRefinery.Proofs.Mappings
import JarRefinery.Proofs.Course
import JarRefinery.Proofs.Stages
import JarRefinery.Proofs.Conditions
import JarRefinery.Proofs.Calls
import JarRefinery.Proofs.Allowances
import JarRefinery.Proofs.CallOrder
import JarRefinery.Proofs.Passes
import JarRefinery.Proofs.Payloads
import JarRefinery.Proofs.FailFast
import JarRefinery.Proofs.Files.Hidden
import JarRefinery.Proofs.LikeOperations
import JarRefinery.Proofs.LikeRuns
import JarRefinery.Proofs.Archive.Content
import JarRefinery.Proofs.Containment
import JarRefinery.Proofs.Contents
import JarRefinery.Proofs.Delivery
import JarRefinery.Proofs.Layers
import JarRefinery.Proofs.Libraries
import JarRefinery.Proofs.Stripping
import JarRefinery.Proofs.Restripping
import JarRefinery.Proofs.FlawedArchives
import JarRefinery.Proofs.Retries
import JarRefinery.Proofs.StageEvents
import JarRefinery.Proofs.RunEvents
import JarRefinery.Proofs.Files.Sparing
import JarRefinery.Proofs.Framing
import JarRefinery.Proofs.Digests
import JarRefinery.Proofs.Recording
import JarRefinery.Proofs.RunFrame
import JarRefinery.Proofs.HeaderLines
import JarRefinery.Proofs.Files.Receiving
import JarRefinery.Proofs.Asking
import JarRefinery.Proofs.Intermediary
import JarRefinery.Proofs.MappingFaults
import JarRefinery.Proofs.Prefetch
import JarRefinery.Proofs.Handover
import JarRefinery.Proofs.Additions
import JarRefinery.Proofs.Accounts
import JarRefinery.Proofs.Guards
import JarRefinery.Proofs.Unguarded
import JarRefinery.Proofs.RunGuards
import JarRefinery.Proofs.Json.Spelling
import JarRefinery.Proofs.Json.Printing
import JarRefinery.Proofs.Records
import JarRefinery.Proofs.LibraryPlaces
import JarRefinery.Proofs.Files.Finding
import JarRefinery.Proofs.FirstJar
import JarRefinery.Proofs.NormalizedDocuments
import JarRefinery.Proofs.PrefetchOrder
import JarRefinery.Proofs.PrimaryJar
import JarRefinery.Proofs.Resolution
import JarRefinery.Proofs.ToolPaths
import JarRefinery.Proofs.Coordinates
import JarRefinery.Proofs.AdvisoryLibraries
