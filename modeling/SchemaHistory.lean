import SchemaHistory.Main
import SchemaHistory.Rehearsal
import SchemaHistory.Proofs.AcceptedScripts
import SchemaHistory.Proofs.ConsistentReplays
import SchemaHistory.Proofs.ForeignKeyColumns
import SchemaHistory.Proofs.QuotedDefaults
import SchemaHistory.Proofs.TableBlocks
import SchemaHistory.Proofs.InertSources
import SchemaHistory.Proofs.IndependentSources
import SchemaHistory.Proofs.CancelledTables
import SchemaHistory.Proofs.ColumnReferences
import SchemaHistory.Proofs.ReverseDirection
import SchemaHistory.Proofs.Layout
import SchemaHistory.Proofs.Granularity
import SchemaHistory.Proofs.FailedStatements
import SchemaHistory.Proofs.CanonicalOrder
import SchemaHistory.Proofs.LastingOrders
import SchemaHistory.Proofs.RepeatedSquash
import SchemaHistory.Proofs.SnapshotRoundTrip
import SchemaHistory.Proofs.FilesInPlace
import SchemaHistory.Proofs.ColumnAlterations
import SchemaHistory.Proofs.AlterStatements
import SchemaHistory.Proofs.Phrases
import SchemaHistory.Proofs.QuotedAttributes
import SchemaHistory.Proofs.ModifierOrder
import SchemaHistory.Proofs.ShortForeignKeys
import SchemaHistory.Proofs.CompositeKeys
import SchemaHistory.Proofs.DroppedTables
import SchemaHistory.Proofs.KeptCode
import SchemaHistory.Proofs.CallPieces
import SchemaHistory.Proofs.PlacedRecognition
import SchemaHistory.Proofs.ScriptNames
import SchemaHistory.Proofs.ClassCollisions
import SchemaHistory.Proofs.SettingsFile
