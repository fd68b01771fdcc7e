import Catomicals.CbMpcSigner.SessionClaim
import Catomicals.ChainErgo.ThresholdSchnorr
import Catomicals.Desktop.AgentBridge
import Catomicals.Desktop.CashAddress
import Catomicals.Desktop.ExecutorExclusive
import Catomicals.Desktop.NetworkPolicy
import Catomicals.Desktop.PersonalFastPath
import Catomicals.Indexer.Items
import Catomicals.Indexer.Panics
import Catomicals.Issuance.Build
import Catomicals.Sessions.AppendOnly
import Catomicals.ThresholdSigner.DeviceHistory
import Catomicals.ThresholdSigner.Reservations
import Catomicals.Trading.Competition
import Catomicals.WalletCore.Api
import Catomicals.WalletCore.DurableCoherence
import Catomicals.WalletCore.SigningExpiry
import Catomicals.WalletStorage.DeviceEvents
import Catomicals.WalletStorage.RequestNonces
import Catomicals.ThresholdSigner.Preimages
import Catomicals.Trading.Commitments
import Catomicals.WalletCore.IntentBinding
import Catomicals.ThresholdSigner.EarlyFinalize
import Catomicals.ChainBsv.Transaction
import Catomicals.Issuance.Commitments
import Catomicals.Sessions.Segments
import Catomicals.WalletStorage.IntentPages
