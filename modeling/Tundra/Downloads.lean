/-
  Tundra.Downloads

  What a scan knows about the transactions it downloads: each is the one its
  id names; a confirmed one is anchored in a block of the scan's own map, under
  a header the server returned and a Merkle proof that was checked; an
  unconfirmed one is seen at the time of the scan.  The loop over the history
  adds exactly one of these facts for each entry.
-/

import Tundra.Histories

namespace Tundra
namespace Scan

open Checked Relational Esplora

variable {State Wallet : Type} {env : ChainEnv State Wallet} {out : Outside}

/-! ## Blocks and headers -/

/-- The server returned a header under a block hash. -/
def HeaderReturned (env : ChainEnv State Wallet) (http : Http) (hash : BlockHash)
    (header : Header) : Prop :=
  env.headerHash header = hash ∧ ∃ body text bytes,
    http.Answered ("/block/" ++ env.displayBlockHash hash ++ "/header") body ∧
    Http.decodeUtf8 body = some text ∧ env.fromHex text = some bytes ∧
    env.deserializeHeader bytes = some header

/-- Every header of the scan's table was returned by the server. -/
def HeadersReturned (env : ChainEnv State Wallet) (found : Found) : Prop :=
  ∀ (hash : BlockHash) (header : Header), found.headers[hash]? = some header →
    HeaderReturned env found.http hash header

/-- Later requests and blocks; the history and the visits stay. -/
structure Grows (found found' : Found) : Prop where
  http : found.http.Extends found'.http
  blocks : ∀ (h : Nat) (hash : BlockHash), found.blocks[h]? = some hash →
    found'.blocks[h]? = some hash
  history : found'.history = found.history
  visits : found'.visits = found.visits
  evictedAts : found'.update.evictedAts = found.update.evictedAts

theorem Grows.refl (found : Found) : Grows found found :=
  ⟨.refl, fun _ _ h => h, rfl, rfl, rfl⟩

theorem Grows.trans {found found' found'' : Found} (h : Grows found found')
    (h' : Grows found' found'') : Grows found found'' where
  http := h.http.trans h'.http
  blocks := fun height hash hget => h'.blocks height hash (h.blocks height hash hget)
  history := h'.history.trans h.history
  visits := h'.visits.trans h.visits
  evictedAts := h'.evictedAts.trans h.evictedAts

theorem HeaderReturned.mono {http http' : Http} {hash : BlockHash} {header : Header}
    (h : HeaderReturned env http hash header) (hext : http.Extends http') :
    HeaderReturned env http' hash header := by
  obtain ⟨hhash, body, text, bytes, hanswer, hrest⟩ := h
  exact ⟨hhash, body, text, bytes, hanswer.mono hext, hrest⟩

/-- Asking for a block adds at most that block, and nothing else changes. -/
theorem fetchBlock_eq_ok {found found' : Found} {height : Nat}
    (h : fetchBlock env out found height = .ok found') :
    Grows found found' ∧ found'.update = found.update ∧ found'.headers = found.headers := by
  simp only [fetchBlock] at h
  split_ifs at h with hmem
  · cases h
    exact ⟨.refl found, rfl, rfl⟩
  · simp only [bind_eq_ok] at h
    obtain ⟨⟨hash, http⟩, hhash, heq⟩ := h
    cases heq
    refine ⟨⟨Http.hash_eq_ok hhash, ?_, rfl, rfl, rfl⟩, rfl, rfl⟩
    intro h' hash' hget
    have hne : height ≠ h' := by
      rintro rfl
      exact hmem ((Table.mem_iff_get _ _).mpr ⟨hash', hget⟩)
    rw [Table.get_insert_ne _ _ hne]
    exact hget

theorem fetchHeader_eq_ok {found found' : Found} {hash : BlockHash}
    (h : fetchHeader env out found hash = .ok found') (hheaders : HeadersReturned env found) :
    Grows found found' ∧ found'.update = found.update ∧ HeadersReturned env found' := by
  simp only [fetchHeader] at h
  split_ifs at h with hmem
  · cases h
    exact ⟨.refl found, rfl, hheaders⟩
  · simp only [bind_eq_ok, okOr_eq_ok, require_eq_ok, exists_unit] at h
    obtain ⟨⟨text, http⟩, htext, bytes, hbytes, header, hheader, hhash, heq⟩ := h
    cases heq
    obtain ⟨body, hdecode, hanswer, hext⟩ := Http.text_eq_ok htext
    refine ⟨⟨hext, fun _ _ h => h, rfl, rfl, rfl⟩, rfl, ?_⟩
    intro hash' header' hget
    rw [Table.get_insert] at hget
    split_ifs at hget with heq
    · cases hget
      subst heq
      exact ⟨hhash, body, text, bytes, hanswer, hdecode, hbytes, hheader⟩
    · exact (hheaders hash' header' hget).mono hext

/-! ## Entries -/

/-- The checked anchor of a confirmed entry, in the scan's final maps. -/
structure Anchored (env : ChainEnv State Wallet) (height : Nat) (found : Found) (txid : Txid)
    (status : Status) (anchor : ConfirmationBlockTime) : Prop where
  blockHeight : status.blockHeight = some anchor.height
  blockHash : status.blockHash = some anchor.hash
  blockTime : status.blockTime = some anchor.confirmationTime
  belowTip : anchor.height ≤ height
  inChain : found.blocks[anchor.height]? = some anchor.hash
  proved : ∃ header, HeaderReturned env found.http anchor.hash header ∧
    anchor.confirmationTime = header.time.toNat ∧
    ∃ body proof, found.http.Answered ("/tx/" ++ env.displayTxid txid ++ "/merkle-proof") body ∧
      env.parseProof body = some proof ∧
      verifyProof env txid proof header anchor.height = .ok ()

theorem Anchored.mono {height : Nat} {found found' : Found} {txid : Txid} {status : Status}
    {anchor : ConfirmationBlockTime} (h : Anchored env height found txid status anchor)
    (hext : found.http.Extends found'.http)
    (hblocks : ∀ (h : Nat) (hash : BlockHash), found.blocks[h]? = some hash →
      found'.blocks[h]? = some hash) : Anchored env height found' txid status anchor := by
  obtain ⟨header, hreturned, htime, body, proof, hanswer, hproof⟩ := h.proved
  exact
    { blockHeight := h.blockHeight
      blockHash := h.blockHash
      blockTime := h.blockTime
      belowTip := h.belowTip
      inChain := hblocks _ _ h.inChain
      proved := ⟨header, hreturned.mono hext, htime, body, proof, hanswer.mono hext, hproof⟩ }

/-- The entry decides its anchor. -/
theorem Anchored.unique {height : Nat} {found found' : Found} {txid : Txid} {status : Status}
    {anchor anchor' : ConfirmationBlockTime} (h : Anchored env height found txid status anchor)
    (h' : Anchored env height found' txid status anchor') : anchor = anchor' := by
  have hheight := h.blockHeight.symm.trans h'.blockHeight
  have hhash := h.blockHash.symm.trans h'.blockHash
  have htime := h.blockTime.symm.trans h'.blockTime
  cases anchor
  cases anchor'
  simp_all

theorem anchorTx_eq_ok {height : Nat} {txid : Txid} {status : Status} {found found' : Found}
    (h : anchorTx env out height txid status found = .ok found')
    (hheaders : HeadersReturned env found) :
    ∃ anchor, Anchored env height found' txid status anchor ∧ Grows found found' ∧
      HeadersReturned env found' ∧
      found'.update.anchors = found.update.anchors ++ [(anchor, txid)] ∧
      found'.update.seenAts = found.update.seenAts ∧ found'.update.txs = found.update.txs := by
  simp only [anchorTx, bind_eq_ok, okOr_eq_ok, require_eq_ok, exists_unit] at h
  obtain ⟨h', hh, hash, hhash, hle, found₁, hblock, hchain, found₂, hfetch, header, hheader,
    ⟨proof, http⟩, hproof, hverify, htime, heq⟩ := h
  cases heq
  obtain ⟨hgrow₁, hupdate₁, hsame⟩ := fetchBlock_eq_ok hblock
  have hheaders₁ : HeadersReturned env found₁ := by
    intro hash' header' hget
    rw [hsame] at hget
    exact (hheaders hash' header' hget).mono hgrow₁.http
  obtain ⟨hgrow₂, hupdate₂, hheaders₂⟩ := fetchHeader_eq_ok hfetch hheaders₁
  obtain ⟨body, hparse, hanswer, hext⟩ := Http.json_eq_ok hproof
  have hupdate : found₂.update = found.update := hupdate₂.trans hupdate₁
  refine ⟨{ height := h', hash, confirmationTime := header.time.toNat }, ?_, ?_, ?_, ?_, ?_, ?_⟩
  · exact
      { blockHeight := hh
        blockHash := hhash
        blockTime := htime
        belowTip := hle
        inChain := hgrow₂.blocks _ _ hchain
        proved := ⟨header, (hheaders₂ hash header hheader).mono hext, rfl, body, proof, hanswer,
          hparse, hverify⟩ }
  · have hgrow₃ : Grows found₂ { found₂ with http } := ⟨hext, fun _ _ h => h, rfl, rfl, rfl⟩
    have hgrow := (hgrow₁.trans hgrow₂).trans hgrow₃
    exact ⟨hgrow.http, hgrow.blocks, hgrow.history, hgrow.visits, hgrow.evictedAts⟩
  · intro hash' header' hget
    exact (hheaders₂ hash' header' hget).mono hext
  · show found₂.update.anchors ++ _ = _
    rw [hupdate]
  · show found₂.update.seenAts = _
    rw [hupdate]
  · show found₂.update.txs = _
    rw [hupdate]

/-- What an entry adds to the update: its transaction, and its anchor or the
    time it was seen. -/
inductive Added (env : ChainEnv State Wallet) (height observedAt : Nat) (found found' : Found) :
    Txid × Status → Prop where
  | confirmed {txid : Txid} {status : Status} {anchor : ConfirmationBlockTime}
      (hconfirmed : status.confirmed = true)
      (hanchored : Anchored env height found' txid status anchor)
      (hanchors : found'.update.anchors = found.update.anchors ++ [(anchor, txid)])
      (hseen : found'.update.seenAts = found.update.seenAts) :
      Added env height observedAt found found' (txid, status)
  | unconfirmed {txid : Txid} {status : Status} (hconfirmed : status.confirmed = false)
      (hanchors : found'.update.anchors = found.update.anchors)
      (hseen : found'.update.seenAts = found.update.seenAts ++ [(txid, observedAt)]) :
      Added env height observedAt found found' (txid, status)

theorem addTransaction_eq_ok {height observedAt : Nat} {found found' : Found}
    {row : Txid × Status} (h : addTransaction env out height observedAt found row = .ok found')
    (hheaders : HeadersReturned env found) :
    Grows found found' ∧ HeadersReturned env found' ∧
    (∃ tx, env.computeTxid tx = row.1 ∧ found'.update.txs = found.update.txs ++ [tx]) ∧
    Added env height observedAt found found' row := by
  obtain ⟨txid, status⟩ := row
  simp only [addTransaction, bind_eq_ok, okOr_eq_ok, require_eq_ok, exists_unit] at h
  obtain ⟨⟨raw, http⟩, hraw, tx, _, htxid, next, hnext, heq⟩ := h
  cases heq
  obtain ⟨_, _, _, hext⟩ := Http.bytes_eq_ok hraw
  have hgrow : Grows found { found with http } := ⟨hext, fun _ _ h => h, rfl, rfl, rfl⟩
  have hheaders' : HeadersReturned env { found with http } := fun hash header hget =>
    (hheaders hash header hget).mono hext
  rw [placeTx] at hnext
  split_ifs at hnext with hconfirmed
  · obtain ⟨anchor, hanchored, hgrow', hreturned, hanchors, hseen, htxs⟩ :=
      anchorTx_eq_ok hnext hheaders'
    have htotal := hgrow.trans hgrow'
    refine ⟨⟨htotal.http, htotal.blocks, htotal.history, htotal.visits, htotal.evictedAts⟩,
      hreturned, ⟨tx, htxid, by rw [htxs]⟩, .confirmed hconfirmed ?_ hanchors hseen⟩
    exact hanchored.mono .refl fun _ _ h => h
  · simp only [seeTx, bind_eq_ok, require_eq_ok, exists_unit] at hnext
    obtain ⟨_, heq⟩ := hnext
    cases heq
    exact ⟨⟨hext, fun _ _ h => h, rfl, rfl, rfl⟩, hheaders', ⟨tx, htxid, rfl⟩,
      .unconfirmed (Bool.eq_false_iff.mpr hconfirmed) rfl rfl⟩

/-! ## The loop over the history -/

/-- The update holds exactly what the entries of a list add. -/
structure Recorded (env : ChainEnv State Wallet) (height observedAt : Nat)
    (rows : List (Txid × Status)) (found : Found) : Prop where
  anchored : ∀ txid status, (txid, status) ∈ rows → status.confirmed = true →
    ∃ anchor, Anchored env height found txid status anchor ∧
      (anchor, txid) ∈ found.update.anchors
  anchors : ∀ anchor txid, (anchor, txid) ∈ found.update.anchors →
    ∃ status, (txid, status) ∈ rows ∧ status.confirmed = true ∧
      Anchored env height found txid status anchor
  seenAts : ∀ txid t, (txid, t) ∈ found.update.seenAts ↔
    t = observedAt ∧ ∃ status, (txid, status) ∈ rows ∧ status.confirmed = false
  txs : found.update.txs.map env.computeTxid = rows.map Prod.fst

/-- One more entry, and what it adds. -/
theorem Recorded.add {height observedAt : Nat} {rows : List (Txid × Status)}
    {row : Txid × Status} {found found' : Found} (h : Recorded env height observedAt rows found)
    (hgrow : Grows found found')
    (htx : ∃ tx, env.computeTxid tx = row.1 ∧ found'.update.txs = found.update.txs ++ [tx])
    (hadded : Added env height observedAt found found' row) :
    Recorded env height observedAt (rows ++ [row]) found' := by
  obtain ⟨tx, htxid, htxs⟩ := htx
  have hlist : found'.update.txs.map env.computeTxid = (rows ++ [row]).map Prod.fst := by
    rw [htxs, List.map_append, List.map_append, h.txs, List.map_singleton, List.map_singleton,
      htxid]
  cases hadded with
  | @confirmed txid status anchor hconfirmed hanchored hanchors hseen =>
      refine ⟨fun t s hmem hs => ?_, fun a t hmem => ?_, fun t at' => ?_, hlist⟩
      · rcases List.mem_append.mp hmem with hold | hnew
        · obtain ⟨a, ha, hin⟩ := h.anchored t s hold hs
          exact ⟨a, ha.mono hgrow.http hgrow.blocks, by rw [hanchors]; exact List.mem_append_left _ hin⟩
        · cases List.mem_singleton.mp hnew
          exact ⟨anchor, hanchored, by simp [hanchors]⟩
      · rw [hanchors] at hmem
        rcases List.mem_append.mp hmem with hold | hnew
        · obtain ⟨s, hin, hs, ha⟩ := h.anchors a t hold
          exact ⟨s, List.mem_append_left _ hin, hs, ha.mono hgrow.http hgrow.blocks⟩
        · cases List.mem_singleton.mp hnew
          exact ⟨status, by simp, hconfirmed, hanchored⟩
      · rw [hseen, h.seenAts]
        refine and_congr_right fun _ => ⟨fun ⟨s, hin, hs⟩ => ⟨s, List.mem_append_left _ hin, hs⟩, ?_⟩
        rintro ⟨s, hin, hs⟩
        rcases List.mem_append.mp hin with hold | hnew
        · exact ⟨s, hold, hs⟩
        · cases List.mem_singleton.mp hnew
          rw [hconfirmed] at hs
          cases hs
  | @unconfirmed txid status hconfirmed hanchors hseen =>
      refine ⟨fun t s hmem hs => ?_, fun a t hmem => ?_, fun t at' => ?_, hlist⟩
      · rcases List.mem_append.mp hmem with hold | hnew
        · obtain ⟨a, ha, hin⟩ := h.anchored t s hold hs
          exact ⟨a, ha.mono hgrow.http hgrow.blocks, hanchors ▸ hin⟩
        · cases List.mem_singleton.mp hnew
          rw [hconfirmed] at hs
          cases hs
      · rw [hanchors] at hmem
        obtain ⟨s, hin, hs, ha⟩ := h.anchors a t hmem
        exact ⟨s, List.mem_append_left _ hin, hs, ha.mono hgrow.http hgrow.blocks⟩
      · rw [hseen, List.mem_append, h.seenAts, List.mem_singleton]
        constructor
        · rintro (⟨ht, s, hin, hs⟩ | heq)
          · exact ⟨ht, s, List.mem_append_left _ hin, hs⟩
          · cases heq
            exact ⟨rfl, status, by simp, hconfirmed⟩
        · rintro ⟨rfl, s, hin, hs⟩
          rcases List.mem_append.mp hin with hold | hnew
          · exact .inl ⟨rfl, s, hold, hs⟩
          · cases List.mem_singleton.mp hnew
            exact .inr rfl

/-- The whole loop: every entry is recorded and nothing else is. -/
theorem addTransactions_eq_ok {height observedAt : Nat} {rows : List (Txid × Status)}
    {found found' : Found}
    (h : rows.foldlM (addTransaction env out height observedAt) found = .ok found')
    (hheaders : HeadersReturned env found) (hempty : Recorded env height observedAt [] found) :
    Grows found found' ∧ Recorded env height observedAt rows found' := by
  have hloop := foldlM_ok_scanned
    (fun done next => Grows found next ∧ HeadersReturned env next ∧
      Recorded env height observedAt done next)
    (fun done row rest next next' _ hnext hstep => by
      obtain ⟨hgrow, hreturned, hrecorded⟩ := hnext
      obtain ⟨hgrow', hreturned', htx, hadded⟩ := addTransaction_eq_ok hstep hreturned
      exact ⟨hgrow.trans hgrow', hreturned', hrecorded.add hgrow' htx hadded⟩)
    ⟨.refl found, hheaders, hempty⟩ h
  exact ⟨hloop.1, hloop.2.2⟩

end Scan
end Tundra
