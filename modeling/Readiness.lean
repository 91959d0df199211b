import Readiness.Main
import Readiness.Proofs.Check.Encoding
import Readiness.Proofs.CommandLine.Footprint
import Readiness.Proofs.CommandLine.Listing
import Readiness.Proofs.CommandLine.Status
import Readiness.Proofs.CommandLine.Verify
import Readiness.Proofs.Document.Lookup
import Readiness.Proofs.FileTree.Extension
import Readiness.Proofs.FileTree.Making
import Readiness.Proofs.Merge
import Readiness.Proofs.Probe.Branch
import Readiness.Proofs.Probe.Growth
import Readiness.Proofs.Probe.History
import Readiness.Proofs.Probe.Hosted
import Readiness.Proofs.Probe.Jobs
import Readiness.Proofs.Probe.Protection
import Readiness.Proofs.Probe.PullRequest
import Readiness.Proofs.Proof.Checking
import Readiness.Proofs.Proof.Clearing
import Readiness.Proofs.Proof.Contents
import Readiness.Proofs.Proof.Footprint
import Readiness.Proofs.Proof.Refinement
import Readiness.Proofs.Proof.Writing
import Readiness.Proofs.Report.Colour
import Readiness.Proofs.Repository.Head
import Readiness.Proofs.Rulebook.Ancestry
import Readiness.Proofs.Rulebook.Record
import Readiness.Proofs.Rulebook.Reordering
import Readiness.Proofs.Session.Completeness
import Readiness.Proofs.Session.Soundness
import Readiness.Proofs.Workspace.Consultation
import Readiness.Proofs.Workspace.Contents
import Readiness.Proofs.Workspace.Evaluation
import Readiness.Proofs.Workspace.Footprint
import Readiness.Proofs.Workspace.Refusal
import Readiness.Proofs.Workspace.Reordering
import Readiness.Proofs.Workspace.Rerun
import Readiness.Repository.Change
