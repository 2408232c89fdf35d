/-
  Tundra.Reservations

  The reservation table over whole runs: a live draft holds exactly the
  previous outputs of its stored transaction, any other draft holds none.
-/

import Tundra.Paths

namespace Tundra
namespace Reservations

open Relational Signing Drafts Effects Paths Tundra.System

variable {State Wallet Scan : Type} (env : Env State Wallet Scan)

/-- The reservations of one draft in a store that satisfies the invariant. -/
theorem reserved_iff {db : Db State} (h : StoreOk env db) {d : String} {row : DraftRow} {p : Psbt}
    {r : DraftReview} (hrow : db.drafts[d]? = some row) (happ : Approval env d row p r)
    (w op : String) :
    db.reservations[(w, op)]? = some d ↔
      w = row.walletId ∧ r.state.isLive = true ∧
        op ∈ p.unsignedTx.previousOutputs.map env.displayOutPoint := by
  refine (h.reserved (w, op) d).trans ?_
  rw [← happ.inputs]
  constructor
  · rintro ⟨row', p', r', hrow', happ', hw, hlive, hop⟩
    rw [hrow, Option.some.injEq] at hrow'
    subst hrow'
    obtain ⟨rfl, rfl⟩ := happ.unique happ'
    exact ⟨hw.symm, hlive, hop⟩
  · rintro ⟨rfl, hlive, hop⟩
    exact ⟨row, p, r, hrow, happ, rfl, hlive, hop⟩

/-- **Reservations are exact after every run.**  Every draft has its approved
    PSBT and review; its reservations are the previous outputs of that PSBT
    while it is live, and none otherwise; two live drafts of a wallet spend no
    outpoint together; and no reservation refers to a missing draft. -/
theorem run_reservations_exact (ops : List (Op Scan)) :
    (∀ (d : String) (row : DraftRow), (run env ops).db.drafts[d]? = some row →
      ∃ p r, parseResponse env row.psbt = .ok p ∧ row.reviewJson.parsed = some r ∧
        r.state.isKnown = true ∧
        ∀ w op : String, (run env ops).db.reservations[(w, op)]? = some d ↔
          w = row.walletId ∧ r.state.isLive = true ∧
            op ∈ p.unsignedTx.previousOutputs.map env.displayOutPoint) ∧
    (∀ (d d' : String) (row row' : DraftRow) (p p' : Psbt) (r r' : DraftReview) (op : OutPoint),
      (run env ops).db.drafts[d]? = some row → (run env ops).db.drafts[d']? = some row' →
      parseResponse env row.psbt = .ok p → parseResponse env row'.psbt = .ok p' →
      row.reviewJson.parsed = some r → row'.reviewJson.parsed = some r' →
      r.state.isLive = true → r'.state.isLive = true → row.walletId = row'.walletId →
      op ∈ p.unsignedTx.previousOutputs → op ∈ p'.unsignedTx.previousOutputs → d = d') ∧
    (∀ w op d : String, (run env ops).db.reservations[(w, op)]? = some d →
      ∃ row, (run env ops).db.drafts[d]? = some row ∧ row.walletId = w) := by
  have hok := storeOk_run env ops
  refine ⟨?_, ?_, ?_⟩
  · intro d row hrow
    obtain ⟨p, r, happ⟩ := hok.drafts d row hrow
    exact ⟨p, r, happ.psbt, happ.review, happ.known, reserved_iff env hok hrow happ⟩
  · intro d d' row row' p p' r r' op hrow hrow' hp hp' hr hr' hlive hlive' hw hop hop'
    have hclaim : ∀ {e : String} {row : DraftRow} {p : Psbt} {r : DraftReview},
        (run env ops).db.drafts[e]? = some row → parseResponse env row.psbt = .ok p →
        row.reviewJson.parsed = some r → r.state.isLive = true →
        op ∈ p.unsignedTx.previousOutputs →
        Claims env (run env ops).db e (row.walletId, env.displayOutPoint op) := by
      intro e row p r hrow hp hr hlive hop
      obtain ⟨q, s, happ⟩ := hok.drafts e row hrow
      have hq := happ.psbt
      rw [hp, Except.ok.injEq] at hq
      have hs := happ.review
      rw [hr, Option.some.injEq] at hs
      subst hq hs
      refine ⟨row, p, r, hrow, happ, rfl, hlive, ?_⟩
      rw [happ.inputs]
      exact List.mem_map_of_mem hop
    exact hok.reserved.exclusive (hclaim hrow hp hr hlive hop)
      (hw ▸ hclaim hrow' hp' hr' hlive' hop')
  · intro w op d hd
    exact selectDraft_isSome.mp (hok.keys.reservations w op d hd)

end Reservations
end Tundra
