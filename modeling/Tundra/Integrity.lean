/-
  Tundra.Integrity

  The whole scan: what its parts found, put together.  An accepted scan asked
  for consecutive scripts of both keychains, records every transaction of
  every history with its checked anchor or the time it was seen, and evicts
  what no history mentions.
-/

import Tundra.Downloads
import Tundra.Fixture.Server

namespace Tundra
namespace Scan

open Checked Relational Esplora

variable {State Wallet : Type} {env : ChainEnv State Wallet} {out : Outside}

/-! ## The parts of a scan -/

/-- The scan has not looked at any script yet. -/
structure Fresh (found : Found) : Prop where
  update : found.update = {}
  history : found.history = ∅
  headers : found.headers = ∅
  visits : found.visits = []

theorem addCheckpoint_fresh {height : Nat} {found found' : Found} {checkpoint : Nat × BlockHash}
    (h : addCheckpoint env out height found checkpoint = .ok found') (hfresh : Fresh found) :
    Fresh found' := by
  simp only [addCheckpoint] at h
  split_ifs at h
  · obtain ⟨hgrow, hupdate, hheaders⟩ := fetchBlock_eq_ok h
    exact ⟨hupdate.trans hfresh.update, hgrow.history.trans hfresh.history,
      hheaders.trans hfresh.headers, hgrow.visits.trans hfresh.visits⟩
  · cases h
    exact hfresh

theorem scanBlocks_fresh {wallet : Wallet} {endpoint : String} {height : Nat} {tip : BlockHash}
    {found : Found} (h : scanBlocks env out wallet endpoint = .ok (height, tip, found)) :
    Fresh found := by
  simp only [scanBlocks, bind_eq_ok, require_eq_ok, exists_unit] at h
  obtain ⟨⟨first, _⟩, _, _, ⟨height', _⟩, _, ⟨tip', http⟩, _, next, hfold, heq⟩ := h
  cases heq
  exact foldlM_ok_inv Fresh (fun b a b' _ hb hstep => addCheckpoint_fresh hstep hb)
    ⟨rfl, rfl, rfl, rfl⟩ hfold

/-- An entry of some page of some visit. -/
def Listed (visits : List Visit) (txid : Txid) (status : Status) : Prop :=
  ∃ v ∈ visits, ∃ page ∈ v.pages, ({ txid, status } : History) ∈ page

/-- What the visits of a scan have left in its state. -/
structure Searched (env : ChainEnv State Wallet) (wallet : Wallet) (found : Found) : Prop where
  headers : found.headers = ∅
  anchors : found.update.anchors = []
  txs : found.update.txs = []
  seenAts : found.update.seenAts = []
  evictedAts : found.update.evictedAts = []
  asked : ∀ v ∈ found.visits, ∃ body,
    found.http.Answered (historyPath env wallet v.keychain v.index) body
  answered : ∀ v ∈ found.visits, ∀ page ∈ v.pages, ∃ path body,
    found.http.Answered path body ∧ env.parseHistory body = some page
  history : ∀ txid status, found.history[txid]? = some status ↔ Listed found.visits txid status

theorem Fresh.searched {wallet : Wallet} {found : Found} (h : Fresh found) :
    Searched env wallet found where
  headers := h.headers
  anchors := by rw [h.update]
  txs := by rw [h.update]
  seenAts := by rw [h.update]
  evictedAts := by rw [h.update]
  asked := by simp [h.visits]
  answered := by simp [h.visits]
  history := by simp [h.history, h.visits, Listed]

theorem Searched.visit {wallet : Wallet} {found found' : Found} {visit : Visit}
    (h : Searched env wallet found) (hvisit : Visited env wallet found found' visit) :
    Searched env wallet found' where
  headers := hvisit.headers.trans h.headers
  anchors := hvisit.anchors.trans h.anchors
  txs := hvisit.txs.trans h.txs
  seenAts := hvisit.seenAts.trans h.seenAts
  evictedAts := hvisit.evictedAts.trans h.evictedAts
  asked := by
    intro v hv
    rw [hvisit.visits] at hv
    rcases List.mem_append.mp hv with hold | hnew
    · obtain ⟨body, hbody⟩ := h.asked v hold
      exact ⟨body, hbody.mono hvisit.http⟩
    · cases List.mem_singleton.mp hnew
      exact hvisit.asked
  answered := by
    intro v hv page hpage
    rw [hvisit.visits] at hv
    rcases List.mem_append.mp hv with hold | hnew
    · obtain ⟨path, body, hbody, hparse⟩ := h.answered v hold page hpage
      exact ⟨path, body, hbody.mono hvisit.http, hparse⟩
    · cases List.mem_singleton.mp hnew
      exact hvisit.answered page hpage
  history := by
    intro txid status
    rw [hvisit.history, h.history, Listed, Listed, hvisit.visits]
    simp only [List.mem_append, List.mem_singleton, or_and_right, exists_or, exists_eq_left]

theorem scanScripts_searched {wallet : Wallet} {k : KeychainKind} {remaining index gap : Nat}
    {found found' : Found}
    (h : scanScripts env out wallet k remaining index gap found = .ok found')
    (hsearched : Searched env wallet found) :
    Searched env wallet found' ∧ found'.blocks = found.blocks := by
  induction remaining generalizing index gap found with
  | zero => cases h
  | succ remaining ih =>
      simp only [scanScripts, bind_eq_ok] at h
      obtain ⟨⟨visit, next⟩, hscript, hrest⟩ := h
      obtain ⟨_, _, hvisited⟩ := scanScript_eq_ok hscript
      have hnext := hsearched.visit hvisited
      have hgap : (if visit.active then 0 else gap + 1) = gapAfter gap [visit] := rfl
      simp only [hgap] at hrest
      split_ifs at hrest
      · cases hrest
        exact ⟨hnext, hvisited.blocks⟩
      · obtain ⟨hlast, hblocks⟩ := ih hrest hnext
        exact ⟨hlast, hblocks.trans hvisited.blocks⟩

/-- A scan, taken apart: its blocks, its two searches and its downloads. -/
theorem scanAll_eq_ok {wallet : Wallet} {endpoint : String} {observedAt height : Nat}
    {tip : BlockHash} {found : Found}
    (h : scanAll env out wallet endpoint observedAt = .ok (height, tip, found)) :
    ∃ started searched downloaded external internal,
      scanBlocks env out wallet endpoint = .ok (height, tip, started) ∧
      Stopped env wallet .external 0 0 external ∧ external.length ≤ maxScripts ∧
      Stopped env wallet .internal 0 0 internal ∧ internal.length ≤ maxScripts ∧
      found.visits = external ++ internal ∧
      Searched env wallet searched ∧ searched.blocks = started.blocks ∧
      Grows searched downloaded ∧
      Recorded env height observedAt searched.history.toList downloaded ∧
      Grows (evict env observedAt wallet downloaded) found ∧
      found.update = (evict env observedAt wallet downloaded).update ∧
      found.blocks = downloaded.blocks := by
  simp only [scanAll, bind_eq_ok, require_eq_ok, exists_unit] at h
  obtain ⟨⟨height', tip', started⟩, hblocks, searched, hsearch, downloaded, hdownload,
    ⟨last, http₁⟩, hlast, _, ⟨reported, http₂⟩, hreported, _, heq⟩ := h
  cases heq
  simp only [List.foldlM_cons, List.foldlM_nil, bind_eq_ok, pure_eq_ok] at hsearch
  obtain ⟨middle, hexternal, last', hinternal, rfl⟩ := hsearch
  have hfresh := scanBlocks_fresh hblocks
  obtain ⟨external, hstop, hlength, hvisits⟩ := scanScripts_eq_ok hexternal
  obtain ⟨internal, hstop', hlength', hvisits'⟩ := scanScripts_eq_ok hinternal
  obtain ⟨hmiddle, hblocks₁⟩ := scanScripts_searched hexternal hfresh.searched
  obtain ⟨hsearched, hblocks₂⟩ := scanScripts_searched hinternal hmiddle
  have hheaders : HeadersReturned env last' := by
    intro hash header hget
    rw [hsearched.headers] at hget
    simp at hget
  have hempty : Recorded env height' observedAt [] last' := by
    refine ⟨by simp, ?_, ?_, ?_⟩
    · simp [hsearched.anchors]
    · simp [hsearched.seenAts]
    · simp [hsearched.txs]
  obtain ⟨hgrow, hrecorded⟩ := addTransactions_eq_ok hdownload hheaders hempty
  have hext : (evict env observedAt wallet downloaded).http.Extends http₂ := by
    have hfirst := Http.hash_eq_ok hlast
    simp only [tipHeight, bind_eq_ok, okOr_eq_ok] at hreported
    obtain ⟨⟨text, next⟩, htext, value, _, heq⟩ := hreported
    cases heq
    obtain ⟨_, _, _, hsecond⟩ := Http.text_eq_ok htext
    exact hfirst.trans hsecond
  refine ⟨started, last', downloaded, external, internal, hblocks, hstop, hlength, hstop',
    hlength', ?_, hsearched, hblocks₂.trans hblocks₁, hgrow, hrecorded,
    ⟨hext, fun _ _ h => h, rfl, rfl, rfl⟩, rfl, rfl⟩
  show downloaded.visits = _
  rw [hgrow.visits, hvisits', hvisits, hfresh.visits, List.nil_append]

theorem scan_eq_ok {wallet : Wallet} {endpoint : String} {observedAt : Nat} {result : ChainScan} :
    scan env out wallet endpoint observedAt = .ok result ↔ ∃ height tip found,
      scanAll env out wallet endpoint observedAt = .ok (height, tip, found) ∧
      result = { blocks := found.blocks, update := found.update } := by
  simp only [scan, bind_eq_ok, Prod.exists]
  constructor
  · rintro ⟨height, tip, found, hscan, heq⟩
    cases heq
    exact ⟨height, tip, found, hscan, rfl⟩
  · rintro ⟨height, tip, found, hscan, rfl⟩
    exact ⟨height, tip, found, hscan, rfl⟩

/-! ## The update of an accepted scan -/

/-- The update says about each transaction what the histories say, with every
    anchor checked, and says nothing else. -/
structure Accurate (env : ChainEnv State Wallet) (wallet : Wallet) (height observedAt : Nat)
    (found : Found) : Prop where
  /-- The pages are what the server answered. -/
  answered : ∀ v ∈ found.visits, ∀ page ∈ v.pages, ∃ path body,
    found.http.Answered path body ∧ env.parseHistory body = some page
  fetched : ∀ txid status, Listed found.visits txid status →
    ∃ tx ∈ found.update.txs, env.computeTxid tx = txid
  /-- Histories agree on a transaction. -/
  agreed : ∀ txid status status', Listed found.visits txid status →
    Listed found.visits txid status' → status = status'
  confirmed : ∀ txid status, Listed found.visits txid status → status.confirmed = true →
    ∃ anchor, Anchored env height found txid status anchor ∧
      ∀ a, (a, txid) ∈ found.update.anchors ↔ a = anchor
  unconfirmed : ∀ txid status, Listed found.visits txid status → status.confirmed = false →
    (∀ t, (txid, t) ∈ found.update.seenAts ↔ t = observedAt) ∧
    ∀ a, (a, txid) ∉ found.update.anchors
  evicted : ∀ txid t, (txid, t) ∈ found.update.evictedAts ↔
    t = observedAt ∧ txid ∈ env.transactions wallet ∧ ∀ status, ¬ Listed found.visits txid status
  onlyAnchored : ∀ a txid, (a, txid) ∈ found.update.anchors →
    ∃ status, Listed found.visits txid status ∧ status.confirmed = true
  onlySeen : ∀ txid t, (txid, t) ∈ found.update.seenAts →
    ∃ status, Listed found.visits txid status ∧ status.confirmed = false

/-- A recorded history, as statements about what was listed. -/
theorem Recorded.accurate {wallet : Wallet} {height observedAt : Nat} {rows : List (Txid × Status)}
    {found : Found} (h : Recorded env height observedAt rows found)
    (hanswered : ∀ v ∈ found.visits, ∀ page ∈ v.pages, ∃ path body,
      found.http.Answered path body ∧ env.parseHistory body = some page)
    (hrows : ∀ txid status, (txid, status) ∈ rows ↔ Listed found.visits txid status)
    (hagreed : ∀ txid status status', (txid, status) ∈ rows → (txid, status') ∈ rows →
      status = status')
    (hevicted : ∀ txid t, (txid, t) ∈ found.update.evictedAts ↔
      t = observedAt ∧ txid ∈ env.transactions wallet ∧ ∀ status, (txid, status) ∉ rows) :
    Accurate env wallet height observedAt found where
  answered := hanswered
  fetched := by
    intro txid status hlisted
    have hmem : txid ∈ rows.map Prod.fst :=
      List.mem_map_of_mem (f := Prod.fst) ((hrows txid status).mpr hlisted)
    rw [← h.txs] at hmem
    exact List.mem_map.mp hmem
  agreed := by
    intro txid status status' hlisted hlisted'
    exact hagreed txid status status' ((hrows _ _).mpr hlisted) ((hrows _ _).mpr hlisted')
  confirmed := by
    intro txid status hlisted hconfirmed
    have hin := (hrows txid status).mpr hlisted
    obtain ⟨anchor, hanchored, hmem⟩ := h.anchored txid status hin hconfirmed
    refine ⟨anchor, hanchored, fun a => ⟨fun ha => ?_, fun ha => ha ▸ hmem⟩⟩
    obtain ⟨status', hin', _, hanchored'⟩ := h.anchors a txid ha
    rw [hagreed txid status' status hin' hin] at hanchored'
    exact hanchored'.unique hanchored
  unconfirmed := by
    intro txid status hlisted hpending
    have hin := (hrows txid status).mpr hlisted
    refine ⟨fun t => ?_, fun a ha => ?_⟩
    · rw [h.seenAts]
      exact ⟨fun ht => ht.1, fun ht => ⟨ht, status, hin, hpending⟩⟩
    · obtain ⟨status', hin', hconfirmed, _⟩ := h.anchors a txid ha
      rw [hagreed txid status' status hin' hin, hpending] at hconfirmed
      cases hconfirmed
  evicted := by
    intro txid t
    rw [hevicted]
    simp only [hrows]
  onlyAnchored := by
    intro a txid ha
    obtain ⟨status, hin, hconfirmed, _⟩ := h.anchors a txid ha
    exact ⟨status, (hrows _ _).mp hin, hconfirmed⟩
  onlySeen := by
    intro txid t ht
    obtain ⟨_, status, hin, hpending⟩ := (h.seenAts txid t).mp ht
    exact ⟨status, (hrows _ _).mp hin, hpending⟩

/-- A state that only grew, with the same update, records the same. -/
theorem Recorded.mono {height observedAt : Nat} {rows : List (Txid × Status)}
    {found found' : Found} (h : Recorded env height observedAt rows found)
    (hext : found.http.Extends found'.http)
    (hblocks : ∀ (h : Nat) (hash : BlockHash), found.blocks[h]? = some hash →
      found'.blocks[h]? = some hash) (hanchors : found'.update.anchors = found.update.anchors)
    (hseen : found'.update.seenAts = found.update.seenAts)
    (htxs : found'.update.txs = found.update.txs) :
    Recorded env height observedAt rows found' where
  anchored := by
    intro txid status hin hconfirmed
    obtain ⟨anchor, hanchored, hmem⟩ := h.anchored txid status hin hconfirmed
    exact ⟨anchor, hanchored.mono hext hblocks, hanchors ▸ hmem⟩
  anchors := by
    intro anchor txid hmem
    obtain ⟨status, hin, hconfirmed, hanchored⟩ := h.anchors anchor txid (hanchors ▸ hmem)
    exact ⟨status, hin, hconfirmed, hanchored.mono hext hblocks⟩
  seenAts := by
    intro txid t
    rw [hseen, h.seenAts]
  txs := by rw [htxs, h.txs]

theorem scanAll_accurate {wallet : Wallet} {endpoint : String} {observedAt height : Nat}
    {tip : BlockHash} {found : Found}
    (h : scanAll env out wallet endpoint observedAt = .ok (height, tip, found)) :
    Accurate env wallet height observedAt found := by
  obtain ⟨started, searched, downloaded, _, _, _, _, _, _, _, hvisits, hsearched, _, hgrow,
    hrecorded, hext, hupdate, hblocks⟩ := scanAll_eq_ok h
  have hsame : found.visits = searched.visits := hext.visits.trans hgrow.visits
  have hfound : Recorded env height observedAt searched.history.toList found := by
    refine hrecorded.mono hext.http (fun _ _ hget => hblocks ▸ hget) ?_ ?_ ?_
    · rw [hupdate]
      rfl
    · rw [hupdate]
      rfl
    · rw [hupdate]
      rfl
  have hrows : ∀ txid status, (txid, status) ∈ searched.history.toList ↔
      Listed found.visits txid status := by
    intro txid status
    rw [Table.mem_toList, hsearched.history, hsame]
  refine hfound.accurate ?_ hrows ?_ ?_
  · intro v hv page hpage
    rw [hsame] at hv
    obtain ⟨path, body, hbody, hparse⟩ := hsearched.answered v hv page hpage
    exact ⟨path, body, (hbody.mono hgrow.http).mono hext.http, hparse⟩
  · intro txid status status' hin hin'
    have hget := Table.mem_toList.mp hin
    rw [Table.mem_toList.mp hin'] at hget
    exact (Option.some.inj hget).symm
  · intro txid t
    have hnone : downloaded.update.evictedAts = [] := hgrow.evictedAts.trans hsearched.evictedAts
    have hmem : txid ∈ downloaded.history ↔ ∃ status, (txid, status) ∈ searched.history.toList := by
      rw [hgrow.history, Table.mem_iff_get]
      simp only [Table.mem_toList]
    rw [← not_exists, ← hmem]
    rw [hupdate]
    simp only [evict, hnone, List.nil_append, List.mem_map, List.mem_filter, decide_eq_true_eq,
      Prod.mk.injEq]
    constructor
    · rintro ⟨id, ⟨hin, hnot⟩, rfl, rfl⟩
      exact ⟨rfl, hin, hnot⟩
    · rintro ⟨rfl, hin, hnot⟩
      exact ⟨txid, ⟨hin, hnot⟩, rfl, rfl⟩

end Scan
end Tundra
