import EnumLookup.Main
import EnumLookup.Registry
import EnumLookup.FileTree
import EnumLookup.Proofs.Counting
import EnumLookup.Proofs.Registry
import EnumLookup.Proofs.Report.Runs
import EnumLookup.Proofs.Artifact.Helpers
import EnumLookup.Proofs.Artifact.HeaderLines
import EnumLookup.Proofs.Artifact.Suffixes
import EnumLookup.Proofs.Artifact.Layouts
import EnumLookup.Proofs.Files.Atomic
import EnumLookup.Proofs.Files.Confined
import EnumLookup.Proofs.Manifest.RoundTrip
import EnumLookup.Proofs.Artifact.Outcomes
import EnumLookup.Proofs.Artifact.Examples
import EnumLookup.Proofs.Resolution.Refusal
import EnumLookup.Proofs.Artifact.Indentation
import EnumLookup.Proofs.Layout.Scopes
import EnumLookup.Proofs.Registry.Order
import EnumLookup.Proofs.Report.Strictness
import EnumLookup.Proofs.Discriminator.NormalForm
import EnumLookup.Proofs.Artifact.Literals
