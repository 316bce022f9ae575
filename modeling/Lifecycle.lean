import Lifecycle.Artifact
import Lifecycle.Assembly
import Lifecycle.Calendar
import Lifecycle.Category
import Lifecycle.Classification
import Lifecycle.Client.Basic
import Lifecycle.CommandLine.Arguments
import Lifecycle.CommandLine.Run
import Lifecycle.Decimal.Rounding
import Lifecycle.Decimal.Shortest
import Lifecycle.ExtraMethods
import Lifecycle.Failure
import Lifecycle.File.Path
import Lifecycle.File.Storage
import Lifecycle.Identifier
import Lifecycle.Inheritance
import Lifecycle.Json.Basic
import Lifecycle.Json.Document
import Lifecycle.Json.Fault
import Lifecycle.Json.Path
import Lifecycle.Json.Reader
import Lifecycle.Json.Take
import Lifecycle.Json.Writer
import Lifecycle.Keyed
import Lifecycle.Load
import Lifecycle.Main
import Lifecycle.Method
import Lifecycle.Mock.Encode
import Lifecycle.Mock.Test
import Lifecycle.Mock.Value
import Lifecycle.Notice
import Lifecycle.Proofs.Accessors
import Lifecycle.Proofs.ArtifactAccount
import Lifecycle.Proofs.BodyProperties
import Lifecycle.Proofs.BoundMethods
import Lifecycle.Proofs.ByIdentifier
import Lifecycle.Proofs.Capitals
import Lifecycle.Proofs.CategoryShape
import Lifecycle.Proofs.Confinement
import Lifecycle.Proofs.Consistency
import Lifecycle.Proofs.CreateChoice
import Lifecycle.Proofs.Creation
import Lifecycle.Proofs.DefinitionChain
import Lifecycle.Proofs.Drawing
import Lifecycle.Proofs.Filing
import Lifecycle.Proofs.FollowUp
import Lifecycle.Proofs.Footprint
import Lifecycle.Proofs.Foresight
import Lifecycle.Proofs.Gist
import Lifecycle.Proofs.Independence
import Lifecycle.Proofs.Indexed
import Lifecycle.Proofs.Lineage
import Lifecycle.Proofs.MethodsByName
import Lifecycle.Proofs.Mirror
import Lifecycle.Proofs.NameSymbols
import Lifecycle.Proofs.NearestDeclaration
import Lifecycle.Proofs.NestingLimit
import Lifecycle.Proofs.NullFree
import Lifecycle.Proofs.OffendingKey
import Lifecycle.Proofs.Outline
import Lifecycle.Proofs.Overloads
import Lifecycle.Proofs.ParameterNames
import Lifecycle.Proofs.ParameterPlaces
import Lifecycle.Proofs.PascalCase
import Lifecycle.Proofs.PathInsertion
import Lifecycle.Proofs.PathOutcome
import Lifecycle.Proofs.PathSpelling
import Lifecycle.Proofs.ReadBack
import Lifecycle.Proofs.RecordLaws
import Lifecycle.Proofs.RefusedPaths
import Lifecycle.Proofs.ResponseBody
import Lifecycle.Proofs.Reuse
import Lifecycle.Proofs.RoundTrip
import Lifecycle.Proofs.SampleAccount
import Lifecycle.Proofs.SampleBook
import Lifecycle.Proofs.SchemaOrder
import Lifecycle.Proofs.SecretKeys
import Lifecycle.Proofs.Sequence
import Lifecycle.Proofs.Settlement
import Lifecycle.Proofs.Singular
import Lifecycle.Proofs.StageNames
import Lifecycle.Proofs.SubUrl
import Lifecycle.Proofs.TestAccount
import Lifecycle.Proofs.UnitDouble
import Lifecycle.Proofs.UrlWords
import Lifecycle.Proofs.ValueShape
import Lifecycle.Proofs.WrittenPaths
import Lifecycle.Random.ChaCha
import Lifecycle.Random.Generator
import Lifecycle.Random.Seeded
import Lifecycle.Report
import Lifecycle.Report.Page
import Lifecycle.Sample
import Lifecycle.Sample.Encode
import Lifecycle.Sample.Page
import Lifecycle.Service.Basic
import Lifecycle.Service.Decode
import Lifecycle.Service.Encode
import Lifecycle.Settings
import Lifecycle.Source
import Lifecycle.Stage
import Lifecycle.Text.Blank
import Lifecycle.Text.Case
import Lifecycle.Text.CaseTable
import Lifecycle.Text.Hidden
import Lifecycle.Text.Quoted
import Lifecycle.Text.Search
import Lifecycle.Url
import Lifecycle.Yaml.Cursor
import Lifecycle.Yaml.Fault
import Lifecycle.Yaml.Node
import Lifecycle.Yaml.Plain
import Lifecycle.Yaml.ScalarText
import Lifecycle.Yaml.Take
import Lifecycle.Yaml.Token
