import Hsm.Validator.SigningSafety
import Hsm.Validator.CrashSafety
import Hsm.Validator.MigrationGuard
import Hsm.Validator.RegistrationRace
import Hsm.Validator.Isolation
import Hsm.Validator.EotsSafety
import Hsm.Audit.HashInput
import Hsm.Audit.CheckpointPrefix
import Hsm.Audit.Verifier
import Hsm.Audit.TamperDetection
import Hsm.Kmip.Framing
import Hsm.Kmip.Totality
import Hsm.Storage.Coherence
import Hsm.Secrets.StoreLaws
import Hsm.Secrets.Listing
import Hsm.Secrets.Versions
import Hsm.Secrets.LeaseLaws
import Hsm.Auth.AssetSeparation
import Hsm.Auth.Escalation
import Hsm.Auth.RecoveryClosure
import Hsm.Auth.Budget
import Hsm.Auth.Lifetime
import Hsm.Auth.ApprovalSafety
import Hsm.Auth.Grants
import Hsm.Threshold.RefreshSafety
import Hsm.Threshold.ResharingKey
import Hsm.Threshold.EcdsaDkgLiveness
import Hsm.Threshold.BatchRejection
import Hsm.Threshold.Participant
import Hsm.Threshold.BlsEngine
import Hsm.Cluster.Election
import Hsm.Cluster.Health
import Hsm.Cluster.LogRestart
import Hsm.Blockchain.TransactionLaws
import Hsm.Blockchain.SolanaLaws
import Hsm.Blockchain.CosmosDecoding
import Hsm.Blockchain.DerivationPath
import Hsm.Blockchain.Eip712
import Hsm.Backup.Chain
import Hsm.Backup.Envelope
import Hsm.KeyManager.StoreCoherence
import Hsm.KeyManager.Chains
import Hsm.Grpc.UsagePolicy
import Hsm.Bridge.Policy
import Hsm.Bridge.Approvals
import Hsm.Bridge.Correlation
import Hsm.Webhooks.Signature
import Hsm.Fips.Algorithms
import Hsm.Fips.Mode
import Hsm.ZkProofs.MerkleCircuit
import Hsm.Pkcs11.Login
import Hsm.WasmPolicy.Engine
