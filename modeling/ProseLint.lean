import ProseLint.CharacterTable.Load
import ProseLint.CommandLine
import ProseLint.Configuration.Load
import ProseLint.Engine
import ProseLint.Main
import ProseLint.Parse
import ProseLint.Proofs.Markup.Outline
import ProseLint.Proofs.Parse.Lines
import ProseLint.Registry
import ProseLint.Report.Writer
import ProseLint.Proofs.Engine.Calls
import ProseLint.Proofs.Engine.Isolation
import ProseLint.Proofs.Report.Output
import ProseLint.Proofs.Report.JsonReader
import ProseLint.Proofs.Report.JsonReport
import ProseLint.Proofs.Markup.Paragraphs
import ProseLint.Proofs.Markup.Offsets
import ProseLint.Proofs.Markup.Reading
import ProseLint.Proofs.Parse.Extents
import ProseLint.Proofs.Parse.LineBreaks
import ProseLint.Proofs.Configuration.Setup
import ProseLint.Proofs.CommandLine.Arguments
import ProseLint.Proofs.CommandLine.Run
import ProseLint.Proofs.Sentence.Links
import ProseLint.Proofs.Markup.Links
import ProseLint.Proofs.Report.XmlReport
import ProseLint.Proofs.Configuration.Loading
import ProseLint.Proofs.Sentence.Fragments
import ProseLint.Proofs.Markup.PlainText
import ProseLint.Proofs.Document.Flags
import ProseLint.Proofs.Document.Seats
import ProseLint.Proofs.Markup.Arrangement
import ProseLint.Proofs.Sentence.Ends
import ProseLint.Proofs.Sentence.Reachable
import ProseLint.Proofs.Sentence.Whole
import ProseLint.Proofs.Sentence.Groups
import ProseLint.Proofs.Sentence.Runs
import ProseLint.Proofs.Sentence.Receivers
import ProseLint.Proofs.Markup.Laying
import ProseLint.Proofs.Document.Lists
import ProseLint.Proofs.Markup.WikiLinks
import ProseLint.Proofs.Markup.Elements
import ProseLint.Proofs.Markup.WikiLists
import ProseLint.Proofs.Sentence.Rescan
import ProseLint.Proofs.Parse.Unmarked
import ProseLint.Proofs.Document.Building
import ProseLint.Proofs.Document.Forest
import ProseLint.Proofs.Markup.Openings
import ProseLint.Proofs.Text.LineFeeds
import ProseLint.Proofs.Text.Words
import ProseLint.Proofs.Markdown.Folding
import ProseLint.Proofs.Document.References
