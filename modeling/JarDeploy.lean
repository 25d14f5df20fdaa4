import JarDeploy.Artifact
import JarDeploy.Artifact.Naming
import JarDeploy.Artifact.Pattern
import JarDeploy.Batch
import JarDeploy.Checksum.Crc32
import JarDeploy.Checksum.Sha256
import JarDeploy.Cli
import JarDeploy.CommandLine.Parse
import JarDeploy.CommandLine.Similarity
import JarDeploy.Decimal.Shortest
import JarDeploy.Deflate.Inflate
import JarDeploy.Deflate.Stored
import JarDeploy.Disk
import JarDeploy.FileFilter
import JarDeploy.Glob
import JarDeploy.IoError
import JarDeploy.Jar.Error
import JarDeploy.Jar.Inspect
import JarDeploy.Jar.Repack
import JarDeploy.Jar.Signature
import JarDeploy.Json.Decode
import JarDeploy.Json.Read
import JarDeploy.Json.Value
import JarDeploy.Legacy
import JarDeploy.Listing
import JarDeploy.Listing.Build
import JarDeploy.Main
import JarDeploy.Manifest
import JarDeploy.Outcome
import JarDeploy.Path
import JarDeploy.Pipeline
import JarDeploy.Pool
import JarDeploy.Pool.Workers
import JarDeploy.Request
import JarDeploy.Retry
import JarDeploy.Settings
import JarDeploy.Settings.Encode
import JarDeploy.Settings.Error
import JarDeploy.Task
import JarDeploy.Task.Execute
import JarDeploy.Text.Base64
import JarDeploy.Text.Blank
import JarDeploy.Text.Mismatch
import JarDeploy.Text.Printable
import JarDeploy.Text.Quoted
import JarDeploy.Text.Utf8
import JarDeploy.Timestamp
import JarDeploy.Toml.Assemble
import JarDeploy.Toml.Decode
import JarDeploy.Toml.Document
import JarDeploy.Toml.Parse
import JarDeploy.Toml.Report
import JarDeploy.Toolkit
import JarDeploy.Toolkit.Faults
import JarDeploy.Touch
import JarDeploy.World
import JarDeploy.Zip.Archive
import JarDeploy.Zip.Writer
import JarDeploy.Proofs.Act
import JarDeploy.Proofs.Path
import JarDeploy.Proofs.Disk
import JarDeploy.Proofs.Frame
import JarDeploy.Proofs.Tools
import JarDeploy.Proofs.Stage
import JarDeploy.Proofs.Chain
import JarDeploy.Proofs.Results
import JarDeploy.Proofs.Batch
import JarDeploy.Proofs.Pipeline
import JarDeploy.Proofs.Deploy
import JarDeploy.Proofs.Refusal
import JarDeploy.Proofs.Manifest
import JarDeploy.Proofs.ManifestGrammar
import JarDeploy.Proofs.ManifestWrap
import JarDeploy.Proofs.ManifestMerge
import JarDeploy.Proofs.Upsert
import JarDeploy.Proofs.UpToDate
import JarDeploy.Proofs.Placement
import JarDeploy.Proofs.Selection
import JarDeploy.Proofs.Move
import JarDeploy.Proofs.SinglePass
import JarDeploy.Proofs.Workers
import JarDeploy.Proofs.Decoding
import JarDeploy.Proofs.ZipRoundTrip
import JarDeploy.Proofs.StoredBlocks
import JarDeploy.Proofs.JarRead
import JarDeploy.Proofs.Repack
import JarDeploy.Proofs.Listing
import JarDeploy.Proofs.Retry
import JarDeploy.Proofs.StagingPrefix
import JarDeploy.Proofs.DistinguishedName
import JarDeploy.Proofs.FaultInjection
import JarDeploy.Proofs.FileTimes
import JarDeploy.Proofs.LegacyRun
import JarDeploy.Proofs.TaskBytes
import JarDeploy.Proofs.DeployBytes
import JarDeploy.Proofs.PassBytes
import JarDeploy.Proofs.Nodes
import JarDeploy.Proofs.StageBytes
import JarDeploy.Proofs.SameDeploy
