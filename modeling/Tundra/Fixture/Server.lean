/-
  Tundra.Fixture.Server

  A server that knows of no transaction: it answers the genesis question, a
  tip of a given height and hash, and an empty page for every script.
-/

import Tundra.Fixture.Chain
import Tundra.Scan

namespace Tundra
namespace Fixture

open Ascii Relational Esplora

/-- The fixture's account as it is imported. -/
def importedWallet : TestWallet where
  network := .regtest
  external := accountDescriptor 0
  internal := accountDescriptor 1
  texts := (displayDescriptor (accountDescriptor 0), displayDescriptor (accountDescriptor 1))
  recognised := firstScripts (accountDescriptor 0) .external ++
    firstScripts (accountDescriptor 1) .internal
  chain := (∅ : Table Nat BlockHash).insert 0 (genesisHash .regtest)

/-- The same with its first receive address revealed. -/
def revealedWallet : TestWallet := (importedWallet.revealNext .external).2

def asciiBytes (chars : List Char) : Bytes := chars.map (fun c => UInt8.ofNat c.toNat)

def hashText (hash : BlockHash) : Bytes := asciiBytes (hexChars hash.reverse)

/-- The answers to 45 requests: genesis, tip height, tip hash, twenty empty
    histories for each keychain, and the tip again. -/
def quietServer (height : Nat) (tip : BlockHash) : Server := fun n _ =>
  let body := if n = 1 then hashText (genesisHash .regtest)
    else if n = 2 ∨ n = 45 then asciiBytes (Nat.toDigits 10 height)
    else if n = 3 ∨ n = 44 then hashText tip
    else asciiBytes ['[', ']']
  some { success := true, contentLength := some body.length, chunks := [body], complete := true }

/-- A scan of that server that is not cancelled. -/
def quiet (height : Nat) (tip : BlockHash) : Scan.Outside where
  server := quietServer height tip
  poll _ := .ok ()

end Fixture
end Tundra
