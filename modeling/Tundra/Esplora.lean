/-
  Tundra.Esplora

  The bounded HTTP client of a chain scan (`Http` in `sync.rs`) and the Merkle
  proof check.  A server is a function of the number of the request and its
  URL, so it may answer one question differently at different times.  The
  client keeps a log of what it was answered; no decision depends on it.
-/

import Tundra.Chain

namespace Tundra
namespace Esplora

open Checked Relational

variable {State Wallet : Type} (env : ChainEnv State Wallet)

def maxBody : Nat := 4000000

def maxTotal : Nat := 64000000

def maxRequests : Nat := 20000

/-! ## Requests -/

/-- One response, with the chunks of its body as they arrive. -/
structure Response where
  success : Bool
  contentLength : Option Nat
  chunks : List Bytes
  /-- Did the body end, or the connection break? -/
  complete : Bool

/-- The answer to the n-th request; `none` when no response came. -/
abbrev Server := Nat → String → Option Response

structure Http where
  endpoint : String
  total : Nat := 0
  requests : Nat := 0
  /-- The paths that were answered, with the bodies. -/
  log : List (String × Bytes) := []

/-- Collect the chunks of a body under both limits. -/
def readChunks (limit : Nat) : List Bytes → Bytes → Nat → Result (Bytes × Nat)
  | [], bytes, total => .ok (bytes, total)
  | chunk :: chunks, bytes, total => do
      require (¬ (limit < bytes.length + chunk.length ∨ maxTotal < total + chunk.length)) .syncLimit
      readChunks limit chunks (bytes ++ chunk) (total + chunk.length)

namespace Http

variable (server : Server) (http : Http)

def bytes (path : String) (limit : Nat) : Result (Bytes × Http) := do
  let requests := http.requests + 1
  require (requests ≤ maxRequests) .syncLimit
  let response ← okOr (server requests (http.endpoint ++ path)) .syncFailed
  require (response.success = true) .syncFailed
  require (response.contentLength.all (· ≤ limit)) .syncLimit
  let (bytes, total) ← readChunks limit response.chunks [] http.total
  require (response.complete = true) .syncFailed
  .ok (bytes, { http with total, requests, log := http.log ++ [(path, bytes)] })

/-- `String::from_utf8`. -/
def decodeUtf8 (bytes : Bytes) : Option String := String.fromUTF8? ⟨bytes.toArray⟩

def text (path : String) (limit : Nat) : Result (String × Http) := do
  let (bytes, http) ← http.bytes server path limit
  let text ← okOr (decodeUtf8 bytes) .syncFailed
  .ok (text, http)

/-- `Http::json`, with the deserializer of its result type. -/
def json {α : Type} (parse : Bytes → Option α) (path : String) : Result (α × Http) := do
  let (bytes, http) ← http.bytes server path maxBody
  let value ← okOr (parse bytes) .syncFailed
  .ok (value, http)

def hash (height : Nat) : Result (BlockHash × Http) := do
  let (text, http) ← http.text server ("/block-height/" ++ toString height) 64
  let hash ← okOr (env.parseBlockHash text) .syncFailed
  .ok (hash, http)

end Http

/-! ## Answers -/

/-- The value of a digit. -/
def digit (d : Char) : Option Nat :=
  if '0' ≤ d ∧ d ≤ '9' then some (d.toNat - '0'.toNat) else none

/-- `u32::from_str`: decimal digits after at most one plus sign. -/
def parseU32 (text : String) : Option Nat := do
  let digits := if text.toList.head? = some '+' then text.toList.tail else text.toList
  let values ← digits.mapM digit
  let value := values.foldl (fun n d => 10 * n + d) 0
  if digits ≠ [] ∧ value < 2 ^ 32 then some value else none

/-- The height that `/blocks/tip/height` reports. -/
def tipHeight (server : Server) (http : Http) : Result (Nat × Http) := do
  let (text, http) ← http.text server "/blocks/tip/height" 10
  let height ← okOr (parseU32 text) .syncFailed
  .ok (height, http)

/-- Hash up a Merkle branch; the position says on which side the sibling is. -/
def foldBranch (hash : Bytes) (pos : Nat) : List Txid → Bytes × Nat
  | [] => (hash, pos)
  | sibling :: rest =>
      let pair := if pos % 2 = 0 then hash ++ sibling.bytes else sibling.bytes ++ hash
      foldBranch (env.sha256d pair) (pos / 2) rest

def verifyProof (txid : Txid) (proof : Proof) (header : Header) (height : Nat) : Result Unit := do
  require (¬ (proof.blockHeight ≠ height ∨ 32 < proof.merkle.length)) .syncFailed
  let (hash, pos) := foldBranch env txid.bytes proof.pos proof.merkle
  require (¬ (pos ≠ 0 ∨ hash ≠ header.merkleRoot)) .syncFailed

/-! ## The log -/

variable {env}

/-- A path was answered with a body. -/
def Http.Answered (http : Http) (path : String) (body : Bytes) : Prop := (path, body) ∈ http.log

/-- Later requests only add to the log. -/
def Http.Extends (http http' : Http) : Prop := http.log <+: http'.log

namespace Http

variable {server : Server} {http http' http'' : Http} {path : String} {limit : Nat}

@[simp] theorem Extends.refl : http.Extends http := List.prefix_rfl

theorem Extends.trans (h : http.Extends http') (h' : http'.Extends http'') :
    http.Extends http'' := List.IsPrefix.trans h h'

theorem Answered.mono {body : Bytes} (h : http.Answered path body) (hle : http.Extends http') :
    http'.Answered path body := hle.subset h

theorem bytes_eq_ok {body : Bytes} (h : http.bytes server path limit = .ok (body, http')) :
    http.requests < maxRequests ∧ http'.requests = http.requests + 1 ∧
    http'.Answered path body ∧ http.Extends http' := by
  simp only [bytes, bind_eq_ok, require_eq_ok, okOr_eq_ok, exists_unit] at h
  obtain ⟨hlimit, response, _, _, _, ⟨read, total⟩, _, _, heq⟩ := h
  cases heq
  refine ⟨by omega, rfl, ?_, List.prefix_append ..⟩
  exact List.mem_append_right _ (List.mem_singleton_self _)

/-- A request is logged after all earlier ones. -/
theorem bytes_log {body : Bytes} (h : http.bytes server path limit = .ok (body, http')) :
    http'.log = http.log ++ [(path, body)] := by
  simp only [bytes, bind_eq_ok, require_eq_ok, okOr_eq_ok, exists_unit] at h
  obtain ⟨_, response, _, _, _, ⟨read, total⟩, _, _, heq⟩ := h
  cases heq
  rfl

theorem text_eq_ok {text : String} (h : http.text server path limit = .ok (text, http')) :
    ∃ body, decodeUtf8 body = some text ∧ http'.Answered path body ∧ http.Extends http' := by
  simp only [Http.text, bind_eq_ok, okOr_eq_ok] at h
  obtain ⟨⟨body, next⟩, hbytes, value, hvalue, heq⟩ := h
  cases heq
  obtain ⟨_, _, hanswer, hext⟩ := bytes_eq_ok hbytes
  exact ⟨body, hvalue, hanswer, hext⟩

theorem text_log {text : String} (h : http.text server path limit = .ok (text, http')) :
    ∃ body, http'.log = http.log ++ [(path, body)] ∧ decodeUtf8 body = some text := by
  simp only [Http.text, bind_eq_ok, okOr_eq_ok] at h
  obtain ⟨⟨body, next⟩, hbytes, value, hvalue, heq⟩ := h
  cases heq
  exact ⟨body, bytes_log hbytes, hvalue⟩

theorem json_eq_ok {α : Type} {parse : Bytes → Option α} {value : α}
    (h : http.json server parse path = .ok (value, http')) :
    ∃ body, parse body = some value ∧ http'.Answered path body ∧ http.Extends http' := by
  simp only [json, bind_eq_ok, okOr_eq_ok] at h
  obtain ⟨⟨body, next⟩, hbytes, value', hvalue, heq⟩ := h
  cases heq
  obtain ⟨_, _, hanswer, hext⟩ := bytes_eq_ok hbytes
  exact ⟨body, hvalue, hanswer, hext⟩

theorem hash_eq_ok {height : Nat} {hash : BlockHash}
    (h : http.hash env server height = .ok (hash, http')) : http.Extends http' := by
  simp only [Http.hash, bind_eq_ok, okOr_eq_ok] at h
  obtain ⟨⟨text, next⟩, htext, value, _, heq⟩ := h
  cases heq
  obtain ⟨_, _, _, hext⟩ := text_eq_ok htext
  exact hext

theorem hash_log {height : Nat} {hash : BlockHash}
    (h : http.hash env server height = .ok (hash, http')) :
    ∃ body text, http'.log = http.log ++ [("/block-height/" ++ toString height, body)] ∧
      decodeUtf8 body = some text ∧ env.parseBlockHash text = some hash := by
  simp only [Http.hash, bind_eq_ok, okOr_eq_ok] at h
  obtain ⟨⟨text, next⟩, htext, value, hvalue, heq⟩ := h
  cases heq
  obtain ⟨body, hlog, hdecode⟩ := text_log htext
  exact ⟨body, text, hlog, hdecode, hvalue⟩

end Http

theorem tipHeight_log {server : Server} {http http' : Http} {height : Nat}
    (h : tipHeight server http = .ok (height, http')) :
    ∃ body text, http'.log = http.log ++ [("/blocks/tip/height", body)] ∧
      Http.decodeUtf8 body = some text ∧ parseU32 text = some height := by
  simp only [tipHeight, bind_eq_ok, okOr_eq_ok] at h
  obtain ⟨⟨text, next⟩, htext, value, hvalue, heq⟩ := h
  cases heq
  obtain ⟨body, hlog, hdecode⟩ := Http.text_log htext
  exact ⟨body, text, hlog, hdecode, hvalue⟩

theorem verifyProof_eq_ok {txid : Txid} {proof : Proof} {header : Header} {height : Nat} {u : Unit} :
    verifyProof env txid proof header height = .ok u ↔
      proof.blockHeight = height ∧ proof.merkle.length ≤ 32 ∧
      foldBranch env txid.bytes proof.pos proof.merkle = (header.merkleRoot, 0) := by
  simp only [verifyProof, bind_eq_ok, require_eq_ok, exists_unit]
  constructor
  · rintro ⟨hhead, hfold⟩
    refine ⟨by omega, by omega, Prod.ext ?_ ?_⟩
    · exact Classical.not_not.mp fun hne => hfold (.inr hne)
    · exact Classical.not_not.mp fun hne => hfold (.inl hne)
  · rintro ⟨hheight, hlength, hfold⟩
    rw [hfold]
    exact ⟨by omega, by simp⟩

end Esplora
end Tundra
