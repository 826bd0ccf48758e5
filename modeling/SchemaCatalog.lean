import SchemaCatalog.Assembly
import SchemaCatalog.Catalog.Fingerprint
import SchemaCatalog.Catalog.Reader
import SchemaCatalog.Constant.Json
import SchemaCatalog.Dialect
import SchemaCatalog.Proofs.Assembly.Locality
import SchemaCatalog.Proofs.Assembly.Names
import SchemaCatalog.Proofs.Assembly.StructOrder
import SchemaCatalog.Proofs.Converter.Constraints
import SchemaCatalog.Record.Extractor
import SchemaCatalog.Sample
import SchemaCatalog.Sample.Profile
import SchemaCatalog.Proofs.Sample.Outcome
import SchemaCatalog.Proofs.Dialect.Kind
import SchemaCatalog.Proofs.Sample.Kind
import SchemaCatalog.Proofs.Record.Encoding
import SchemaCatalog.Proofs.Record.Row
import SchemaCatalog.Proofs.Record.Stored
import SchemaCatalog.Proofs.Json.Reader
import SchemaCatalog.Proofs.Catalog.RoundTrip
import SchemaCatalog.Proofs.Converter.KeySetting
import SchemaCatalog.Proofs.Assembly.KeySetting
import SchemaCatalog.Proofs.Converter.EnumName
import SchemaCatalog.Proofs.Assembly.EnumTypes
import SchemaCatalog.Proofs.Converter.KeyDepth
import SchemaCatalog.Proofs.Registry.Spelling
import SchemaCatalog.Proofs.Converter.Spelling
import SchemaCatalog.Proofs.Converter.TableSpelling
import SchemaCatalog.Proofs.Assembly.Spelling
import SchemaCatalog.Proofs.Assembly.MoreRoots
import SchemaCatalog.Proofs.Assembly.Arises
import SchemaCatalog.Proofs.Dialect.Capabilities
import SchemaCatalog.Proofs.Assembly.SmallEnums
import SchemaCatalog.Proofs.Assembly.Modules
import SchemaCatalog.Proofs.DataType.Order
import SchemaCatalog.Proofs.Converter.Owner
import SchemaCatalog.Proofs.Assembly.Labels
import SchemaCatalog.Proofs.Assembly.Style
import SchemaCatalog.Proofs.Assembly.Cycles
import SchemaCatalog.Proofs.Assembly.SearchOrder
import SchemaCatalog.Proofs.Registry.Traversal
import SchemaCatalog.Proofs.Converter.IntegerRange
import SchemaCatalog.Proofs.Converter.ListItems
import SchemaCatalog.Proofs.Converter.Annotations
import SchemaCatalog.Proofs.Converter.Checks
import SchemaCatalog.Proofs.Assembly.TextLength
import SchemaCatalog.Proofs.Converter.WellFormed
import SchemaCatalog.Proofs.Assembly.Termination
import SchemaCatalog.Proofs.Converter.TableFormation
import SchemaCatalog.Proofs.Converter.JoinTable
import SchemaCatalog.Proofs.Sample.Keys
import SchemaCatalog.Proofs.Sample.Subset
import SchemaCatalog.Proofs.Sample.Depth
import SchemaCatalog.Proofs.Registry.Run
import SchemaCatalog.Proofs.Registry.Extensible
import SchemaCatalog.Proofs.Converter.LookupTable
import SchemaCatalog.Proofs.Sample.Length
