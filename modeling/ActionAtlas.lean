import ActionAtlas.Main
import ActionAtlas.Proofs.CommandLine.EmittedGraph
import ActionAtlas.Proofs.Names.Assembly
import ActionAtlas.Proofs.Names.Resolution
import ActionAtlas.Proofs.Names.Genericity
import ActionAtlas.Proofs.Names.PartOrder
import ActionAtlas.Proofs.Json.Yields
import ActionAtlas.Proofs.Graph.ShapeDepth
import ActionAtlas.Proofs.Graph.NormalForm
import ActionAtlas.Proofs.CSharp.Records
import ActionAtlas.Proofs.CSharp.Notation
import ActionAtlas.Proofs.Mvc.Seen
import ActionAtlas.Proofs.Mvc.TypeOrder
import ActionAtlas.Proofs.Names.Apart
import ActionAtlas.Proofs.Mvc.FileOrder
import ActionAtlas.Proofs.Names.FurtherFile
import ActionAtlas.Proofs.CSharp.Comments.Cutting
import ActionAtlas.Proofs.CSharp.Nearness
import ActionAtlas.Proofs.Mvc.Texts
import ActionAtlas.Proofs.CSharp.Comments.Values
import ActionAtlas.Proofs.CSharp.Comments.Heads
import ActionAtlas.Proofs.CSharp.Comments.Members
import ActionAtlas.Proofs.Mvc.Comments
import ActionAtlas.Proofs.Mvc.Locality
import ActionAtlas.Proofs.Mvc.Union
import ActionAtlas.Proofs.CommandLine.FurtherFlags
import ActionAtlas.Proofs.Mvc.View
import ActionAtlas.Proofs.Graph.ShapeText
import ActionAtlas.Proofs.Names.Spellings
import ActionAtlas.Proofs.Names.Canonical
import ActionAtlas.Proofs.Names.InnerArguments
import ActionAtlas.Proofs.CSharp.Literals.Standing
import ActionAtlas.Proofs.CSharp.GlobalDirectives
import ActionAtlas.Proofs.CSharp.PartAccess
import ActionAtlas.Proofs.CSharp.Parameters
import ActionAtlas.Proofs.CSharp.Literals.RawStrings
import ActionAtlas.Proofs.CSharp.Literals.Spellings
import ActionAtlas.Proofs.CSharp.Literals.Evaluation
import ActionAtlas.Proofs.CSharp.Literals.Quotes
import ActionAtlas.Proofs.CSharp.Literals.Surrogates
import ActionAtlas.Proofs.CSharp.Literals.Integers
import ActionAtlas.Proofs.CSharp.Literals.IntegerTerms
import ActionAtlas.Proofs.Files.Sources
import ActionAtlas.Proofs.Path
import ActionAtlas.Proofs.CommandLine.CodedDefaults
