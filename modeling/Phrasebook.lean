import Phrasebook.Text.Basic
import Phrasebook.Text.Blank
import Phrasebook.Text.Printable
import Phrasebook.Text.Substitution
import Phrasebook.Text.Terminal
import Phrasebook.Path
import Phrasebook.Encoding.Utf8
import Phrasebook.Encoding.Utf16
import Phrasebook.Encoding.Detect
import Phrasebook.Json.Quoted
import Phrasebook.SystemError.Reason
import Phrasebook.SystemError
import Phrasebook.FileSystem.Tree
import Phrasebook.FileSystem
import Phrasebook.PathCheck
import Phrasebook.Diagnostic
import Phrasebook.Problem
import Phrasebook.Event
import Phrasebook.Log
import Phrasebook.Report
import Phrasebook.Sheet.Record
import Phrasebook.Sheet.Basic
import Phrasebook.Platform
import Phrasebook.Language
import Phrasebook.LanguageCode
import Phrasebook.Columns
import Phrasebook.Markup
import Phrasebook.Format.Android
import Phrasebook.Format.Apple
import Phrasebook.Format.Web
import Phrasebook.Format
import Phrasebook.Phrase
import Phrasebook.Table
import Phrasebook.Keys
import Phrasebook.Document
import Phrasebook.Publication
import Phrasebook.Session
import Phrasebook.Project
import Phrasebook.Command.Arguments
import Phrasebook.Command.Invocation
import Phrasebook.Command.Run
import Phrasebook.Command.Footprint
import Phrasebook.Main
import Phrasebook.Proofs.Scanner
import Phrasebook.Proofs.Substitution
import Phrasebook.Proofs.Preparing
import Phrasebook.Proofs.RowByRow
import Phrasebook.Proofs.Json
import Phrasebook.Proofs.KeyOrder
import Phrasebook.Proofs.WebDocument
import Phrasebook.Proofs.Xml
import Phrasebook.Proofs.AndroidText
import Phrasebook.Proofs.AndroidDocument
import Phrasebook.Proofs.StringsFile
import Phrasebook.Proofs.AppleText
import Phrasebook.Proofs.AppleDocument
import Phrasebook.Proofs.History
import Phrasebook.Proofs.Reuse
import Phrasebook.Proofs.Bindings
import Phrasebook.Proofs.PreparedTable
import Phrasebook.Proofs.EarlyFailure
import Phrasebook.Proofs.FileFrame
import Phrasebook.Proofs.FilePaths
import Phrasebook.Proofs.Publishing
import Phrasebook.Proofs.SharedFiles
import Phrasebook.Proofs.Reporting
import Phrasebook.Proofs.FurtherLanguages
import Phrasebook.Proofs.EveryPlatform
import Phrasebook.Proofs.DryRun
import Phrasebook.Proofs.Verdict
import Phrasebook.Proofs.Layout
import Phrasebook.Proofs.NamedColumns
import Phrasebook.Proofs.SectionComments
import Phrasebook.Proofs.Encodings
import Phrasebook.Proofs.Records
import Phrasebook.Proofs.Export
import Phrasebook.Proofs.OpenQuote
import Phrasebook.Proofs.FailureLog
import Phrasebook.Proofs.KeyPairs
import Phrasebook.Proofs.FaultyKeys
import Phrasebook.Proofs.Sections
import Phrasebook.Proofs.AndroidUnescape
import Phrasebook.Proofs.EscapedQuotes
import Phrasebook.Proofs.Locality
import Phrasebook.Proofs.NormalForm
import Phrasebook.Proofs.RowClasses
import Phrasebook.Proofs.Resolution
import Phrasebook.Proofs.CellCounts
import Phrasebook.Proofs.LineOrder
import Phrasebook.Proofs.ProjectText
import Phrasebook.Proofs.SinglePass
import Phrasebook.Proofs.FirstFault
import Phrasebook.Proofs.ReportText
import Phrasebook.Proofs.OutputPaths
