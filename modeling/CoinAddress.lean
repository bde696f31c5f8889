import CoinAddress.Command.Run
import CoinAddress.Main
import CoinAddress.Path.Parser
import CoinAddress.Proofs.AccountForms
import CoinAddress.Proofs.BareKey
import CoinAddress.Proofs.Base58Alphabets
import CoinAddress.Proofs.Base58Forms
import CoinAddress.Proofs.Bech32Errors
import CoinAddress.Proofs.Bech32Forms
import CoinAddress.Proofs.CashAddrErrors
import CoinAddress.Proofs.CashAddrForms
import CoinAddress.Proofs.CashAddrVersions
import CoinAddress.Proofs.CodeDistance
import CoinAddress.Proofs.Corruption
import CoinAddress.Proofs.EvmAddress
import CoinAddress.Proofs.KeyForms
import CoinAddress.Proofs.LoggedValues
import CoinAddress.Proofs.NumberBytes
import CoinAddress.Proofs.PathForms
import CoinAddress.Proofs.PointForms
import CoinAddress.Proofs.ResolveCommand
import CoinAddress.Proofs.SelectionNames
import CoinAddress.Proofs.Ss58Forms
import CoinAddress.Proofs.TonErrors
import CoinAddress.Proofs.TonForms
import CoinAddress.Proofs.VaultAddresses
import CoinAddress.Proofs.WalletCells
import CoinAddress.Vault
