import Galley.Bibliography.Database
import Galley.Lock.Session
import Galley.Main
import Galley.Proofs.Article.Content
import Galley.Proofs.Article.Keywords
import Galley.Proofs.Article.LocalizedText
import Galley.Proofs.Article.Respelling
import Galley.Proofs.Article.RoundTrip
import Galley.Proofs.Bibliography.Check
import Galley.Proofs.Bibliography.Keys
import Galley.Proofs.Bibliography.ReadBack
import Galley.Proofs.CommandLine.Export
import Galley.Proofs.Document.Blocks
import Galley.Proofs.Document.Decode
import Galley.Proofs.Document.Embedding
import Galley.Proofs.Document.Respelling
import Galley.Proofs.Document.Spelling
import Galley.Proofs.Document.Termination
import Galley.Proofs.Export.Cleanup
import Galley.Proofs.Export.FileName
import Galley.Proofs.Export.Interleaving
import Galley.Proofs.FrontMatter.Containment
import Galley.Proofs.FrontMatter.ReadBack
import Galley.Proofs.FrontMatter.Reading
import Galley.Proofs.Json.Agreement
import Galley.Proofs.Json.Members
import Galley.Proofs.Json.Values
import Galley.Proofs.Lock.Exclusion
import Galley.Proofs.Lock.Independence
import Galley.Proofs.Lock.Inspection
import Galley.Proofs.Lock.Purge
import Galley.Proofs.Markup.WellFormed
import Galley.Proofs.Render.Fence
import Galley.Proofs.Render.Fragment
import Galley.Proofs.Render.Heading
import Galley.Proofs.Render.Marks
import Galley.Proofs.Render.Quote
import Galley.Proofs.Render.ReferenceText
import Galley.Proofs.Render.SharedText
import Galley.Proofs.Rendition.JatsWellFormed
import Galley.Proofs.Rendition.Keywords
import Galley.Proofs.Rendition.PageMarkup
import Galley.Proofs.Rendition.Paragraphs
import Galley.Proofs.Text.Trim
import Galley.Shell.Programs
