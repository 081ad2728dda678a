import Linhello.Effect.Interleaving
import Linhello.Daemon.Handlers
import Linhello.Common.Ipc
import Linhello.Biometrics.Pipeline
import Linhello.Liveness.Ir
import Linhello.Liveness.Antispoof
import Linhello.Liveness.Device
import Linhello.Core.Store
import Linhello.Biometrics.Embedding
import Linhello.Host.World
import Linhello.Biometrics.Burst
import Linhello.Host.Simulated
import Linhello.Daemon.Footprint
import Linhello.Daemon.Release
import Linhello.Core.Outcomes
import Linhello.Daemon.Tiers
import Linhello.Daemon.Runs
import Linhello.Daemon.DirectRelease
import Linhello.Daemon.Append
import Linhello.Daemon.KeyInvariant
import Linhello.Daemon.Watch
import Linhello.Daemon.KeyThreads
import Linhello.Daemon.KeyStore
import Linhello.Daemon.KeyRequests
import Linhello.Daemon.Deletion
import Linhello.Daemon.KeyConsistency
import Linhello.Daemon.KeyConcurrency
import Linhello.Daemon.Planning
import Linhello.Host.Surroundings
import Linhello.Daemon.Preflight
import Linhello.Tpm.PolicyDigest
import Linhello.Common.Hex
import Linhello.Tpm.Platform
import Linhello.Tpm.Operations
import Linhello.Tpm.Pcrsig
import Linhello.Tpm.Policy
import Linhello.Tpm.Seal
import Linhello.Tpm.Machine
import Linhello.Tpm.Outcomes
import Linhello.Tpm.Tampering
import Linhello.Tpm.SelfHeal
import Linhello.Tpm.Calm
import Linhello.Tpm.Recovery
import Linhello.Tpm.Selection
import Linhello.Tpm.Agreement
import Linhello.Tpm.Simulated
import Linhello.Core.Recovery
import Linhello.Daemon.KeyAccess
import Linhello.Daemon.Restoring
import Linhello.Daemon.Reenrollment
import Linhello.Daemon.Erasure
import Linhello.Effect.Guided
import Linhello.Daemon.UserFootprint
import Linhello.Common.PathText
import Linhello.Daemon.Containment
import Linhello.Daemon.Isolation
import Linhello.Daemon.Passwords
import Linhello.Daemon.Reopening
import Linhello.Daemon.Secrecy
import Linhello.Pam.Module
import Linhello.Pam.Login
import Linhello.Effect.Expansion
import Linhello.Tpm.FileSteps
import Linhello.Tpm.KeyPair
import Linhello.Tpm.SignatureFile
import Linhello.Effect.Brackets
import Linhello.Tpm.Handles
import Linhello.Tpm.CachedKey
import Linhello.Biometrics.LiveGate
import Linhello.Daemon.Framing
import Linhello.Cli.Update
import Linhello.Cli.ReleaseGate
import Linhello.Cli.Pamwire
import Linhello.Cli.Authselect
import Linhello.Cli.ProfileRuns
import Linhello.Cli.Wiring
import Linhello.Cli.Uninstall
import Linhello.Cli.Disk
import Linhello.Cli.Scrub
import Linhello.Biometrics.Guidance
import Linhello.Biometrics.MajorityVote
import Linhello.Liveness.Envelope
import Linhello.Liveness.Gain
import Linhello.Liveness.IrRegions
import Linhello.Cli.Enabling
import Linhello.Cli.Rollback
import Linhello.Cli.Fallback
import Linhello.Cli.Keyring
import Linhello.Biometrics.Camera
import Linhello.Daemon.SecureTier
import Linhello.Biometrics.Template
import Linhello.Common.JsonValue
import Linhello.Core.EnvelopeFile
import Linhello.Daemon.Identify
import Linhello.Tpm.Keeping
import Linhello.Tpm.Labels
import Linhello.Tpm.ReadBack
import Linhello.Tpm.SignatureText
import Linhello.Core.Interrupted
import Linhello.Daemon.Resealing
import Linhello.Daemon.Lockstep
import Linhello.Pam.Lockstep
import Linhello.Biometrics.Align
import Linhello.Biometrics.Detect
import Linhello.Biometrics.Yuyv
import Linhello.Daemon.Changes
import Linhello.Daemon.SampleCounts
import Linhello.Liveness.Crop
import Linhello.Daemon.Usable
import Linhello.Daemon.CameraSwap
import Linhello.Daemon.Computer
import Linhello.Daemon.Unprivileged
import Linhello.Cli.Announcements
import Linhello.Cli.Wizard
import Linhello.Cli.WizardMoves
import Linhello.Cli.WizardRuns
import Linhello.Cli.WizardSamples
import Linhello.Common.JsonCompact
import Linhello.Common.Replies
import Linhello.Common.SocketText
import Linhello.Daemon.Exchange
import Linhello.Tpm.Diagnosis
import Linhello.Cli.Downloads
import Linhello.Cli.PinnedRuntime
