import CoinAddress.Digest.Sha256
import CoinAddress.Ton.Address

/-!
# Wallets of TON

The account of a wallet contract is the hash of the contract's first state, which holds the code
and, in its data, the owner's key. The contract is the third revision of the simple wallet, second
edition; a subwallet number lets one key own several.

The two hashes are put together from their fixed layouts: a state of five bits that refers to code
and data, both without references of their own, and data of 320 bits.
-/

namespace CoinAddress.Ton.Wallet

/-- The hash of the contract's code. -/
def codeHash : Bytes :=
  [0x84, 0xda, 0xfa, 0x44, 0x9f, 0x98, 0xa6, 0x98, 0x77, 0x89, 0xba, 0x23, 0x23, 0x58, 0x07, 0x2b,
   0xc0, 0xf7, 0x6d, 0xc4, 0x52, 0x40, 0x02, 0xa5, 0xd0, 0x91, 0x8b, 0x9a, 0x75, 0xd2, 0xd5, 0x99]

/-- The subwallet number that wallets on the base chain use. -/
def defaultSubwallet : UInt32 := 698983191

/-- The hash of the contract's data: a counter that starts at zero, the subwallet and the key. -/
def dataHash (key : Bytes) (subwallet : UInt32) : Bytes :=
  Sha256.hash ([0x00, 0x50] ++ Bytes.beBytes 4 0 ++ Bytes.beBytes 4 subwallet.toNat ++ key)

/-- The hash of a state with this code and this data. -/
def stateHash (code data : Bytes) : Bytes :=
  Sha256.hash ([0x02, 0x01, 0x34, 0x00, 0x00, 0x00, 0x00] ++ code ++ data)

/-- The account of the wallet of a key. -/
def account (key : Bytes) (subwallet : UInt32) : Bytes :=
  stateHash codeHash (dataHash key subwallet)

@[simp] theorem length_account (key : Bytes) (subwallet : UInt32) :
    (account key subwallet).length = 32 := Sha256.length_hash _

/-- The address of the wallet of a key: on the base chain, bounceable, not for the test network. -/
def address (key : Bytes) : Address :=
  ⟨baseChain, account key defaultSubwallet, true, false, length_account _ _⟩

end CoinAddress.Ton.Wallet
