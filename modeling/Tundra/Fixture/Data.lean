/-
  Tundra.Fixture.Data

  One regtest wallet with a single key, and the transactions its examples use:
  the payment that funds it, a payment to somebody else, and a payment to one
  of the wallet's own addresses that it has not revealed yet.  All hashes, keys,
  addresses and signatures are the real ones of these transactions.
-/

import Tundra.Lib.Ascii
import Tundra.Fixture.Codec

namespace Tundra
namespace Fixture

open Ascii Wire

/-- The bytes of a number, most significant first. -/
def bigEndian (width n : Nat) : Bytes := (leBytes width n).reverse

/-! ## The account key -/

/-- The extended key of `m/84'/1'/0'` of the seed 000102030405060708090a0b0c0d0e0f. -/
def accountXpub : Bytes :=
  bigEndian 13 0x043587cf03b706ea6480000000 ++
    (bigEndian 32 0x00b43c8f69fc37de32691dd408fec9e2df389a4a8ca97a6b9158d357af36cb6a ++
      bigEndian 33 0x037250fb8bc368072d81f1619d6e1d174c0b276f615ab7a8b00660168f38632688)

def accountText : List Char :=
  ['t', 'p', 'u', 'b', 'D', 'D', 'N', 'R', 'b', 'Z', 'G', 'v', 'd', 'A', '3', '3', 'c', 'g', 'p',
    'Y', '5', 'u', 'y', '2', 'm', 'm', 'p', 'h', 'T', '7', 's', 'K', '4', 'u', 'c', 'i', 'R', 'j',
    'c', 'Q', 'S', 'c', 'S', 'd', '6', '4', 'S', '5', 'K', 'R', 'y', 'Z', 'D', 'x', 'H', 'c', 'P',
    'u', 'z', 's', '2', '4', 'o', 'r', '8', '4', 'H', 'y', 'w', 'u', 'g', 'b', '2', 'J', 'b', 'E',
    'E', 't', '2', 'j', 'W', 'H', '8', 'f', 'd', 'u', 'i', 'N', '9', 'c', 'm', 'Z', 'z', 'k', 'S',
    'j', '8', 's', 'S', 'S', 'x', '6', 't', 'x', 'X', 'k', 'h', 'X', 'y', 'Z', 's']

/-- The master fingerprint, and the path to the account. -/
def accountSource : KeySource where
  fingerprint := 0x3442193e
  path := [0x80000054, 0x80000001, 0x80000000]

/-! ## Scripts and addresses -/

/-- The public keys of the addresses that are used, by branch and index. -/
def childKeys : List ((UInt32 × Nat) × Bytes) :=
  [((0, 0), bigEndian 33 0x020c7f4de1cc760fc068775b1513d67d0a7802f0b4b1c61aa85784ebf722905b27),
    ((0, 1), bigEndian 33 0x02393c9d27b815c337a96931b7f68b679054b7c4ea9504bc14a72f8b8cd45b9e4b),
    ((0, 26), bigEndian 33 0x0231dee2664569fd0e18fcaa730a99497becc939885c21902f338d227fee85f89e),
    ((1, 0), bigEndian 33 0x02c4712f76e49ea79347c5c4cb434ba5ba7ad76778fe5f94253eb4028d82a3e268)]

/-- The hashes of these keys, in the same order. -/
def keyHashes : List (Bytes × Bytes) :=
  List.zip (childKeys.map Prod.snd)
    [bigEndian 20 0xf25e193af88c84263dd5e707ba1cb47e91f629a8,
      bigEndian 20 0x8cb207091e78536c16d50b093fed32f8c68b85f8,
      bigEndian 20 0x2370b82abfcb7793a2d07f701cf91c6fa4d1477f,
      bigEndian 20 0xaef3890b85e63ceeb2f6d59522aa73e358b3fc3c]

/-- The script of the other party. -/
def payeeScript : Bytes := bigEndian 22 0x00142855688bfc8224adcbd61470646c0bb5c367f241

/-- The receive script at index 26. -/
def hiddenScript : Bytes := bigEndian 22 0x00142370b82abfcb7793a2d07f701cf91c6fa4d1477f

/-- The address texts of the scripts that are used. -/
def addresses : List (Script × String) :=
  [(bigEndian 22 0x0014f25e193af88c84263dd5e707ba1cb47e91f629a8, "bcrt1q7f0pjwhc3jzzv0w4uurm589506glv2dggfan4s"),
    (bigEndian 22 0x00148cb207091e78536c16d50b093fed32f8c68b85f8, "bcrt1q3jeqwzg70pfkc9k4pvynlmfjlrrghp0cd705hx"),
    (bigEndian 22 0x00142370b82abfcb7793a2d07f701cf91c6fa4d1477f, "bcrt1qydcts24ledme8gks0acpe7gud7jdz3mlhstgq6"),
    (bigEndian 22 0x0014aef3890b85e63ceeb2f6d59522aa73e358b3fc3c, "bcrt1q4mecjzu9uc7wavhk6k2j92nnudvt8lpu6h4ed0"),
    (bigEndian 22 0x00142855688bfc8224adcbd61470646c0bb5c367f241, "bcrt1q9p2k3zlusgj2mj7kz3cxgmqtkhpk0ujpjmqahv")]

/-! ## Transactions -/

/-- The transaction that pays the funding transaction. -/
def fundingInput : Bytes := bigEndian 32 0xd52d0a7b95031708e5ad92d83392f2652924001da6468922e6b120e0191d6276

/-- The id of the funding transaction, in internal byte order. -/
def fundingTxid : Bytes := bigEndian 32 0x367afbff8ad593c1da985cfcdd7226916110186b9591b77f233452f366786d87

/-- The id of the payment to the other party. -/
def paymentTxid : Bytes := bigEndian 32 0x0881ae2d1289f09de55d04f891b373de5e3dbd9191e0ea20fc7be222bce1e17b

/-- The id of the payment to the hidden script. -/
def selfTxid : Bytes := bigEndian 32 0xbeac2de9bcd97eb20050f7e62bf22f7b4e36c2c99a1a4bda5c22010b1e6819f1

def paymentWtxid : Bytes := bigEndian 32 0x56b69ce4f23964dd124a8ee2529464cc74eb5f37228a04f548fd861069b412bb

/-- The SIGHASH_ALL hash of the only input of the payment. -/
def paymentHash : Bytes := bigEndian 32 0x1a33c3817615b3e859077e0c001fadab63fbc6c9952894598447b4ddb9468d23

def paymentSignature : Bytes :=
  bigEndian 37 0x3045022100d8004d94bbfa6e235393fd329359f4d128c72f1869572ca93625d472f1854df5 ++
    bigEndian 34 0x02200aed893c0f761256029899ec1a7212376e4350b76ce6bb1bffbc7f8d41b6b813

def selfWtxid : Bytes := bigEndian 32 0xd1bc9f19794466b27f136f3d24f927224deadf7d96047e39dfeab14f0081fcc7

/-- The SIGHASH_ALL hash of the only input of the payment to the hidden script. -/
def selfHash : Bytes := bigEndian 32 0x0080f685dd5689f3687bb8f97c07a459b1b6bdf9f0ac2c175688124447547b48

def selfSignature : Bytes :=
  bigEndian 37 0x3045022100c62d19d5aab49bb34a7a88c5e9820b91fc0c9645982f4d2cc0f775d1f13e538c ++
    bigEndian 34 0x02201dcfd67aa28155a192b91628e902555f87f0438f9d855bc4f2cb9a36580ed562

def walletId : String :=
  "216761f0684efe96091127c01c06ad1d4c310eeed042abf803e7aa6b331963b9"

def paymentDraft : String :=
  "39a8403a3e9e29ab8480ed824a621787fc5ee3dc7dd19015158c97a570ebabf4"

def selfDraft : String :=
  "b93618c7c9fb002704720892e18bf776b0c482a02ae7181bc265e96d2f71b4e6"

/-! ### The transactions themselves -/

/-- Bytes as a transaction id; other lengths are padded or cut. -/
def txidOfBytes (bytes : Bytes) : Txid where
  bytes := (bytes ++ List.replicate 32 0).take 32
  size := by simp

def receiveScript : Script := bigEndian 22 0x0014f25e193af88c84263dd5e707ba1cb47e91f629a8

def changeScript : Script := bigEndian 22 0x0014aef3890b85e63ceeb2f6d59522aa73e358b3fc3c

/-- The funding transaction; `stack` is the witness of its input. -/
def fundingTx (stack : List Bytes) : Transaction where
  version := 2
  lockTime := 0
  input := [{ previousOutput := { txid := txidOfBytes fundingInput, vout := 0 }
              sequence := 0xfffffffe
              witness := stack }]
  output := [{ value := 100000, scriptPubkey := receiveScript }]

/-- 60,000 sats of the funding output to a script, and the change. -/
def paymentTx (script : Script) (stack : List Bytes) : Transaction where
  version := 2
  lockTime := 102
  input := [{ previousOutput := { txid := txidOfBytes fundingTxid, vout := 0 }
              sequence := 0xfffffffd
              witness := stack }]
  output := [{ value := 60000, scriptPubkey := script },
    { value := 39859, scriptPubkey := changeScript }]

/-- The final witness of a payment: its signature and the key of the funding output. -/
def signedStack (signature : Bytes) : List Bytes :=
  [signature ++ [0x01],
    bigEndian 33 0x020c7f4de1cc760fc068775b1513d67d0a7802f0b4b1c61aa85784ebf722905b27]

def paymentStack : List Bytes := signedStack paymentSignature

def selfStack : List Bytes := signedStack selfSignature

/-- The double SHA-256 of the serializations that are used. -/
def digests : List (Bytes × Bytes) :=
  [(encodeLegacy (fundingTx []), fundingTxid),
    (encodeLegacy (paymentTx payeeScript []), paymentTxid),
    (encodeLegacy (paymentTx hiddenScript []), selfTxid),
    (serializeTx (paymentTx payeeScript paymentStack), paymentWtxid),
    (serializeTx (paymentTx hiddenScript selfStack), selfWtxid)]

end Fixture
end Tundra
