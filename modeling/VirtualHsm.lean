import VirtualHsm.Admin.VerifyIntegrity
import VirtualHsm.Audit.AppendFailures
import VirtualHsm.ChainAdapter.Merkle
import VirtualHsm.Core.Decoding
import VirtualHsm.Core.SecureBuffer
import VirtualHsm.Firmware.AuthLockout
import VirtualHsm.Firmware.PowerLoss
import VirtualHsm.Firmware.SignedUpload
import VirtualHsm.Keystore.IndexedSearch
import VirtualHsm.Keystore.KeyRotation
import VirtualHsm.Keystore.PinRoles
import VirtualHsm.Ledger.AuditTailAnchor
import VirtualHsm.Ledger.Resubmission
import VirtualHsm.Ledger.RetryDelays
import VirtualHsm.Ledger.ThesisLifecycle
import VirtualHsm.Notification.BusThreads
import VirtualHsm.Notification.NotificationDispatcher
import VirtualHsm.Persistence.KekRestore
import VirtualHsm.Persistence.Migrations
import VirtualHsm.Persistence.RestoreCycle
import VirtualHsm.Persistence.TokenReader
import VirtualHsm.Persistence.VaultSave
import VirtualHsm.Pkcs11.AttributeReads
import VirtualHsm.Pkcs11.CopyRestrictions
import VirtualHsm.Pkcs11.FipsMode
import VirtualHsm.Pkcs11.KeyStateMaterial
import VirtualHsm.Pkcs11.Lockout
import VirtualHsm.Pkcs11.LoginDelays
import VirtualHsm.Pkcs11.OutputLength
import VirtualHsm.Pkcs11.PolicyGate
import VirtualHsm.Pkcs11.Rotation
import VirtualHsm.Pkcs11.Search
import VirtualHsm.Pkcs11.SearchBatches
import VirtualHsm.Pkcs11.SignRelease
import VirtualHsm.Pkcs11.Startup
import VirtualHsm.Pkcs11.WrapRoundTrip
import VirtualHsm.Session.SessionManagerCore
import VirtualHsm.SignatureStore.DbSchema
import VirtualHsm.SignatureStore.DispatchTransactions
import VirtualHsm.SignatureStore.LedgerAgreement
import VirtualHsm.SignatureStore.OutboxPoller
import VirtualHsm.SignatureStore.ReplayContent
import VirtualHsm.SignatureStore.RowCoverage
import VirtualHsm.Threadpool.TaskAccounting
import VirtualHsm.Threadpool.WakeUps
