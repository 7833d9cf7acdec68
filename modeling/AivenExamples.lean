import AivenExamples.Autoscaling.Demo
import AivenExamples.ClickhouseCdc.Delivery
import AivenExamples.ClientAes.Messages
import AivenExamples.DebeziumDiskless.Producer
import AivenExamples.DebeziumDiskless.Verdict
import AivenExamples.DisklessLancedb.ClaimsUsecase
import AivenExamples.DisklessLancedb.Pipeline
import AivenExamples.KafkaMusic.Settling
import AivenExamples.LogRestore.Restore
import AivenExamples.MigrationValidation.PreSnapshot
import AivenExamples.MigrationValidation.Tables
import AivenExamples.MirrorMaker.Selection
import AivenExamples.PgSync.AvroMessages
import AivenExamples.PgSync.Handling
import AivenExamples.PgSync.Unidentified
import AivenExamples.ReapplyIsm.Coverage
import AivenExamples.SecurityMigration.Convergence
import AivenExamples.SecurityMigration.FailStop
import AivenExamples.SecurityMigration.Patching
import AivenExamples.ServiceTests.SpinUp
import AivenExamples.Throughput.Totals
import AivenExamples.TopicCreation.Inkless
import AivenExamples.TwitterProducer.Writer
