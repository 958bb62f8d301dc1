import Scaffolding.Main
import Scaffolding.Proofs.Builder.Report
import Scaffolding.Proofs.CommandLine.Unattended
import Scaffolding.Proofs.Files.Faithful
import Scaffolding.Proofs.Nix.FlakeReference
import Scaffolding.Proofs.Nix.Number
import Scaffolding.Proofs.Registry.Published
import Scaffolding.Proofs.Scaffold.Cancellation
import Scaffolding.Proofs.Scaffold.Credential
import Scaffolding.Proofs.Scaffold.Verdict
import Scaffolding.Proofs.Schema.Default
import Scaffolding.Proofs.Schema.Names
import Scaffolding.Proofs.Settings.Summary
import Scaffolding.Proofs.Source.DocumentUrl
import Scaffolding.Proofs.Source.Token
import Scaffolding.Proofs.Version.Notice
