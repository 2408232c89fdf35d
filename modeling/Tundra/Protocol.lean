/-
  Tundra.Protocol

  The broadcast protocol.  Many requests may race; the transaction that
  inserts an attempt decides.  The attempts of a draft are the submissions in
  the order of their insertion, each linked to the one before it (`Linked`),
  and every POST has its own submission before it (`Journal`).
-/

import Tundra.Finality
import Mathlib.Data.List.Induction

namespace Tundra
namespace Protocol

open Checked Relational Signing Broadcast Drafts Effects Paths Requests Tundra.System

variable {State Wallet Scan : Type} (env : Env State Wallet Scan)

/-! ## The chain of a draft's attempts -/

/-- The ids of a draft's attempts, in order. -/
def attemptIds (db : Db State) (w d : String) : List Nat := (attempts db w d).map Prod.fst

/-- The submissions of a draft, in the order of their insertion. -/
def submissionsOf (world : World State) (w d : String) : List Submission :=
  world.submissions.filter (fun s => s.request.walletId = w ∧ s.request.draftId = d)

/-- Each submission names the one before it, and acknowledges a retry. -/
def Linked : Option Nat → List Submission → Prop
  | _, [] => True
  | previous, s :: rest =>
      s.request.previousAttempt = previous ∧
      (previous ≠ none → s.request.retryAcknowledged = true) ∧
      Linked (some s.attemptId) rest

theorem linked_concat {previous : Option Nat} {l : List Submission} {s : Submission} :
    Linked previous (l ++ [s]) ↔ Linked previous l ∧
      s.request.previousAttempt = ((l.map Submission.attemptId).getLast?.or previous) ∧
      ((l.map Submission.attemptId).getLast?.or previous ≠ none →
        s.request.retryAcknowledged = true) := by
  induction l generalizing previous with
  | nil => simp [Linked]
  | cons t l ih =>
      simp only [List.cons_append, Linked, ih, List.map_cons, List.getLast?_cons]
      cases (l.map Submission.attemptId).getLast? <;> simp [and_assoc]

theorem attemptIds_sorted (db : Db State) (w d : String) :
    (attemptIds db w d).Pairwise (fun a b => compare a b = .lt) :=
  Table.selectRows_keys_sorted ..

theorem mem_attemptIds {db : Db State} {w d : String} {id : Nat} :
    id ∈ attemptIds db w d ↔ ∃ a : AttemptRow, db.broadcastAttempts[id]? = some a ∧
      a.walletId = w ∧ a.draftId = d := by
  simp only [attemptIds, attempts, List.mem_map, Prod.exists, Table.mem_selectRows,
    decide_eq_true_eq]
  constructor
  · rintro ⟨_, a, h, rfl⟩
    exact ⟨a, h⟩
  · rintro ⟨a, h⟩
    exact ⟨id, a, h, rfl⟩

theorem latest_attemptId (db : Db State) (w d : String) :
    (latest db w d).map BroadcastInfo.attemptId = (attemptIds db w d).getLast? := by
  simp [latest, attemptIds, Function.comp_def]

/-- The ids depend on which attempts the draft has. -/
theorem attemptIds_congr {db db' : Db State} {w d : String}
    (h : ∀ id, id ∈ attemptIds db' w d ↔ id ∈ attemptIds db w d) :
    attemptIds db' w d = attemptIds db w d :=
  Table.keys_ext (attemptIds_sorted db' w d) (attemptIds_sorted db w d) h

/-- A new attempt comes last among those of its draft. -/
theorem attemptIds_insert (db : Db State) (row : AttemptRow) (w d : String) :
    attemptIds { db with
      broadcastAttempts := db.broadcastAttempts.insert db.nextAttemptId row
      attemptSequence := db.nextAttemptId } w d =
    attemptIds db w d ++ if row.walletId = w ∧ row.draftId = d then [db.nextAttemptId] else [] := by
  refine Table.keys_ext (attemptIds_sorted _ w d) ?_ ?_
  · split_ifs
    · rw [List.pairwise_append]
      refine ⟨attemptIds_sorted db w d, List.pairwise_singleton .., ?_⟩
      intro id hid next hnext
      obtain ⟨a, ha, _⟩ := mem_attemptIds.mp hid
      rw [List.mem_singleton.mp hnext]
      exact Nat.compare_eq_lt.mpr (lt_nextAttemptId ha)
    · rw [List.append_nil]
      exact attemptIds_sorted db w d
  · intro id
    simp only [mem_attemptIds, List.mem_append, Table.get_insert]
    by_cases hid : db.nextAttemptId = id
    · subst hid
      have hfresh : ∀ a : AttemptRow, db.broadcastAttempts[db.nextAttemptId]? ≠ some a :=
        fun a ha => absurd (lt_nextAttemptId ha) (lt_irrefl _)
      by_cases hrow : row.walletId = w ∧ row.draftId = d
      · simp [hrow]
      · simp [hrow, hfresh]
    · have hid' : ¬ id = db.nextAttemptId := Ne.symm hid
      split_ifs <;> simp [hid']

/-- Every draft's attempts are its submissions, linked, and at most 64. -/
structure Chained (world : World State) : Prop where
  ids : ∀ w d : String, attemptIds world.db w d =
    (submissionsOf world w d).map Submission.attemptId
  linked : ∀ w d : String, Linked none (submissionsOf world w d)
  bounded : ∀ w d : String, (attemptIds world.db w d).length ≤ 64

/-- Nothing but the insertion of an attempt changes the ids. -/
theorem attemptIds_effect {db db' : Db State} (hok : StoreOk env db) {a : Act Wallet}
    (heffect : Effect env a db db') (hne : ∀ w d, a ≠ .attempt w d) (w d : String) :
    attemptIds db' w d = attemptIds db w d := by
  cases heffect with
  | metadata changed => simp only [attemptIds, attempts, changed.same.broadcastAttempts]
  | create => rfl
  | discard found unsubmitted =>
      rename_i w' e row
      refine attemptIds_congr fun id => ?_
      simp only [mem_attemptIds]
      refine ⟨?_, ?_⟩
      · rintro ⟨a, ha, hrest⟩
        exact ⟨a, (Table.get_deleteWhere_eq_some.mp ha).1, hrest⟩
      · rintro ⟨a, ha, hrest⟩
        refine ⟨a, Table.get_deleteWhere_eq_some.mpr ⟨ha, ?_⟩, hrest⟩
        simp only [decide_eq_false_iff_not]
        intro hkey
        rw [submitted_eq_true.mpr ⟨id, a, ha, hkey⟩] at unsubmitted
        cases unsubmitted
  | accept loaded =>
      obtain ⟨row, found, _⟩ := hok.loaded loaded
      rw [updateReview_of_some (by exact found)]
      rfl
  | finalize loaded =>
      obtain ⟨row, found, _⟩ := hok.loaded loaded
      rw [updateReview_of_some (by exact found)]
      rfl
  | observe found =>
      rw [updateReview_of_some (by exact found)]
      rfl
  | invalidate found =>
      rw [updateReview_of_some found]
      rfl
  | attempt => exact absurd rfl (hne _ _)
  | acknowledge found =>
      rename_i id row
      refine attemptIds_congr fun id' => ?_
      simp only [mem_attemptIds, Table.get_insert]
      by_cases hid : id = id'
      · subst hid
        simp [found]
      · simp [hid]
  | resume recovered found =>
      rw [updateReview_of_some found, reserveInputs_eq]
      rfl
  | suspend checked suspended => simp only [attemptIds, attempts, suspended.broadcastAttempts]

/-- Only a recheck inserts an attempt. -/
theorem allowed_ne_attempt {world : World State} {op : Op Scan} {a : Act Wallet}
    (hop : ∀ q body now, op ≠ .recheck q body now) (ha : Allowed env world op a) (w d : String) :
    a ≠ .attempt w d := by
  rintro rfl
  cases op with
  | recheck q body now => exact hop q body now rfl
  | createDraft =>
      obtain h | ⟨_, h⟩ := ha
      · cases h
      · cases h
  | commitSync =>
      obtain ⟨_, _, h | ⟨_, h⟩ | ⟨_, h⟩⟩ := ha
      · cases h
      · cases h
      · cases h
  | acknowledge =>
      obtain ⟨_, h⟩ := ha
      cases h
  | _ => cases ha

theorem Chained.quiet {world world' : World State} (h : Chained world)
    (hids : ∀ w d, attemptIds world'.db w d = attemptIds world.db w d)
    (hsubs : world'.submissions = world.submissions) : Chained world' where
  ids w d := by
    rw [hids, h.ids, submissionsOf, submissionsOf, hsubs]
  linked w d := by
    have hlinked := h.linked w d
    rwa [submissionsOf, ← hsubs] at hlinked
  bounded w d := by
    rw [hids]
    exact h.bounded w d

/-- The row a submission inserts is linked to the last one. -/
theorem Chained.insert {env : Env State Wallet Scan} {world : World State} {op : Op Scan}
    {s : Submission} {p : Preflight} (h : Chained world) (hins : Inserts env world op s p) :
    Chained (step env world op) := by
  obtain ⟨⟨body, now, _, hrun⟩, _, hsubs⟩ := hins
  obtain ⟨_, hprev, hout⟩ := insertAttempt_facts env hrun
  obtain ⟨hid, hdb⟩ := Prod.mk.injEq .. ▸ hout
  simp only [checkPrevious, bind_eq_ok, require_eq_ok, exists_unit, latest_attemptId] at hprev
  obtain ⟨hexpected, hack, hcount⟩ := hprev
  have hof : ∀ w d, submissionsOf (step env world op) w d = submissionsOf world w d ++
      if s.request.walletId = w ∧ s.request.draftId = d then [s] else [] := by
    intro w d
    simp only [submissionsOf, hsubs, List.filter_append]
    split_ifs with hkey <;> simp [hkey]
  have hids : ∀ w d, attemptIds (step env world op).db w d = attemptIds world.db w d ++
      if s.request.walletId = w ∧ s.request.draftId = d then [s.attemptId] else [] := by
    intro w d
    rw [hdb, attemptIds_insert, hid]
    rfl
  refine ⟨?_, ?_, ?_⟩
  · intro w d
    rw [hids, hof, h.ids, List.map_append]
    split_ifs <;> rfl
  · intro w d
    rw [hof]
    split_ifs with hkey
    · obtain ⟨rfl, rfl⟩ := hkey
      refine linked_concat.mpr ⟨h.linked _ _, ?_, ?_⟩
      · rw [← h.ids, Option.or_none, hexpected]
      · rw [← h.ids, Option.or_none]
        intro hne
        refine hack ?_
        rw [← latest_attemptId, Ne, Option.map_eq_none_iff] at hne
        exact Option.isSome_iff_ne_none.mpr hne
    · rw [List.append_nil]
      exact h.linked w d
  · intro w d
    rw [hids]
    split_ifs with hkey
    · obtain ⟨rfl, rfl⟩ := hkey
      simp only [List.length_append, List.length_singleton, attemptIds, List.length_map]
      omega
    · rw [List.append_nil]
      exact h.bounded w d

theorem Chained.step {env : Env State Wallet Scan} {world : World State} (h : Chained world)
    (hok : StoreOk env world.db) (op : Op Scan) : Chained (step env world op) := by
  by_cases hop : ∃ q body now, op = .recheck q body now
  · obtain ⟨q, body, now, rfl⟩ := hop
    rcases recheck_cases env world q body now with hsame | hend | ⟨r, p, a, hins, _⟩
    · rwa [hsame]
    · rw [hend]
      exact h.quiet (fun _ _ => rfl) rfl
    · exact h.insert hins
  · refine h.quiet (fun w d => ?_) ?_
    · refine ((step_path env hok.drafts op).invariant env
        (I := fun db => StoreOk env db ∧ attemptIds db w d = attemptIds world.db w d) ?_
        ⟨hok, rfl⟩).2
      rintro a db db' ha ⟨hdb, hids⟩ heffect
      refine ⟨hdb.effect heffect, ?_⟩
      rw [attemptIds_effect env hdb heffect (allowed_ne_attempt env
        (fun q body now heq => hop ⟨q, body, now, heq⟩) ha), hids]
    · rcases step_requests env world op with hquiet | ⟨_, _, _, hstep⟩ | ⟨s, p, hins, _⟩ |
        ⟨_, _, _, _, hsend⟩
      · exact hquiet.submissions
      · rw [hstep]
      · obtain ⟨body, now, heq, _⟩ := hins.recheck
        exact absurd ⟨_, body, now, heq⟩ hop
      · rw [hsend.step]

theorem chained_run (ops : List (Op Scan)) : Chained (run env ops) := by
  refine (Transition.run_invariant (I := fun world => StoreOk env world.db ∧ Chained world)
    (step env) (fun world op h => ⟨storeOk_step env h.1 op, h.2.step h.1 op⟩)
    ⟨StoreOk.empty env, ?_⟩ ops).2
  exact ⟨fun w d => rfl, fun w d => trivial, fun w d => Nat.zero_le _⟩

/-! ## One request for each previous attempt -/

theorem linked_previous {previous : Option Nat} {l : List Submission} {s : Submission}
    (h : Linked previous l) (hs : s ∈ l) :
    s.request.previousAttempt = previous ∨
      ∃ t ∈ l, s.request.previousAttempt = some t.attemptId := by
  induction l generalizing previous with
  | nil => cases hs
  | cons t l ih =>
      obtain ⟨hprev, _, hrest⟩ := h
      rcases List.mem_cons.mp hs with rfl | hs
      · exact .inl hprev
      · rcases ih hrest hs with hlast | ⟨u, hu, hup⟩
        · exact .inr ⟨t, List.mem_cons_self .., hlast⟩
        · exact .inr ⟨u, List.mem_cons_of_mem _ hu, hup⟩

/-- Linked submissions with distinct ids name distinct previous attempts. -/
theorem linked_unique {previous : Option Nat} {l : List Submission} (h : Linked previous l)
    (hnodup : (l.map Submission.attemptId).Nodup)
    (hprev : ∀ t ∈ l, previous ≠ some t.attemptId) {s s' : Submission} (hs : s ∈ l) (hs' : s' ∈ l)
    (hsame : s.request.previousAttempt = s'.request.previousAttempt) : s = s' := by
  induction l generalizing previous with
  | nil => cases hs
  | cons t l ih =>
      obtain ⟨hhead, _, hrest⟩ := h
      obtain ⟨hnot, hnodup⟩ := List.nodup_cons.mp hnodup
      have hfresh : ∀ u ∈ l, some t.attemptId ≠ some u.attemptId := by
        intro u hu heq
        rw [Option.some.injEq] at heq
        exact hnot (List.mem_map.mpr ⟨u, hu, heq.symm⟩)
      -- the head names `previous`, which no later one does
      have hlater : ∀ u ∈ l, u.request.previousAttempt ≠ previous := by
        intro u hu heq
        rcases linked_previous hrest hu with hlast | ⟨v, hv, hvp⟩
        · exact hprev t (List.mem_cons_self ..) (heq.symm.trans hlast)
        · exact hprev v (List.mem_cons_of_mem _ hv) (heq.symm.trans hvp)
      rcases List.mem_cons.mp hs with rfl | hl <;> rcases List.mem_cons.mp hs' with rfl | hl'
      · rfl
      · exact absurd (hsame.symm.trans hhead) (hlater s' hl')
      · exact absurd (hsame.trans hhead) (hlater s hl)
      · exact ih hrest hnodup hfresh hl hl'

theorem Chained.unique {world : World State} (h : Chained world) {s s' : Submission}
    (hs : s ∈ world.submissions) (hs' : s' ∈ world.submissions)
    (hw : s.request.walletId = s'.request.walletId) (hd : s.request.draftId = s'.request.draftId)
    (hsame : s.request.previousAttempt = s'.request.previousAttempt) : s = s' := by
  have hmem : ∀ t ∈ world.submissions, t.request.walletId = s'.request.walletId →
      t.request.draftId = s'.request.draftId →
      t ∈ submissionsOf world s'.request.walletId s'.request.draftId := by
    intro t ht htw htd
    simp [submissionsOf, ht, htw, htd]
  refine linked_unique (h.linked s'.request.walletId s'.request.draftId) ?_ (fun _ _ => by simp)
    (hmem s hs hw hd) (hmem s' hs' rfl rfl) hsame
  rw [← h.ids]
  exact Table.selectRows_nodup_keys ..

/-! ## The history of a POST -/

/-- During the run a recheck inserted the submission, in a state where the
    preflight's bytes were the validated final bytes of the draft. -/
def Inserted (ops : List (Op Scan)) (s : Submission) (p : Preflight) : Prop :=
  ∃ before op after, ops = before ++ op :: after ∧ Inserts env (run env before) op s p ∧
    validatedFinalized env (run env before).db s.request.walletId s.request.draftId =
      .ok (some p.approved)

/-- During the run the POST was sent for a submission inserted before it. -/
def Sent (ops : List (Op Scan)) (post : Post) : Prop :=
  ∃ before after s p, ops = before ++ .post post.requestId :: after ∧ Inserted env before s p ∧
    s.requestId = post.requestId ∧ s.attemptId = post.attemptId ∧
    s.request.walletId = post.walletId ∧ s.request.draftId = post.draftId ∧
    p.approved.transactionBytes = post.body

/-- Every request past its insertion and every POST has its history. -/
structure Journal (ops : List (Op Scan)) : Prop where
  requests : ∀ (q : Nat) (r : BroadcastRequest) (p : Preflight) (a : Nat),
    (run env ops).requests[q]? = some { request := r, phase := .inserted p a } →
    Inserted env ops { requestId := q, request := r, attemptId := a } p
  posts : ∀ post ∈ (run env ops).posts, Sent env ops post

section Journal

variable {env}
variable {ops : List (Op Scan)}

theorem Inserted.concat {s : Submission} {p : Preflight} (h : Inserted env ops s p) (op : Op Scan) :
    Inserted env (ops ++ [op]) s p := by
  obtain ⟨before, o, after, rfl, hrest⟩ := h
  exact ⟨before, o, after ++ [op], by simp, hrest⟩

theorem Sent.concat {post : Post} (h : Sent env ops post) (op : Op Scan) :
    Sent env (ops ++ [op]) post := by
  obtain ⟨before, after, s, p, rfl, hrest⟩ := h
  exact ⟨before, after ++ [op], s, p, by simp, hrest⟩

theorem Journal.step (h : Journal env ops) (op : Op Scan) : Journal env (ops ++ [op]) := by
  have hrun := run_concat env ops op
  refine ⟨?_, ?_⟩
  · intro q r p a hreq
    rw [hrun] at hreq
    rcases step_requests env (run env ops) op with hquiet | ⟨r', p', _, hstep⟩ |
      ⟨s, p', hins, hrequests, _⟩ | ⟨q', r', p', a', hsend⟩
    · exact (h.requests q r p a (hquiet.requests q _ hreq)).concat op
    · rw [hstep] at hreq
      simp only [Table.get_insert] at hreq
      split_ifs at hreq with hq
      · simp at hreq
      · exact (h.requests q r p a hreq).concat op
    · rw [hrequests, Table.get_insert] at hreq
      split_ifs at hreq with hq
      · simp only [Option.some.injEq, Request.mk.injEq, Phase.inserted.injEq] at hreq
        obtain ⟨rfl, rfl, rfl⟩ := hreq
        subst hq
        obtain ⟨body, now, _, hinsert⟩ := hins.recheck
        exact ⟨ops, op, [], rfl, hins, (insertAttempt_facts env hinsert).1⟩
      · exact (h.requests q r p a hreq).concat op
    · rw [hsend.step] at hreq
      simp only [Table.get_insert] at hreq
      split_ifs at hreq with hq
      · simp at hreq
      · exact (h.requests q r p a hreq).concat op
  · intro post hpost
    rw [hrun] at hpost
    rcases step_requests env (run env ops) op with hquiet | ⟨r', p', _, hstep⟩ |
      ⟨s, p', hins, _, hposts⟩ | ⟨q', r', p', a', hsend⟩
    · exact (h.posts post (hquiet.posts ▸ hpost)).concat op
    · rw [hstep] at hpost
      exact (h.posts post hpost).concat op
    · exact (h.posts post (hposts ▸ hpost)).concat op
    · rw [hsend.step] at hpost
      rcases List.mem_append.mp hpost with hold | hnew
      · exact (h.posts post hold).concat op
      · rw [List.mem_singleton.mp hnew, hsend.isPost]
        exact ⟨ops, [], _, p', rfl, h.requests q' r' p' a' hsend.request, rfl, rfl, rfl, rfl, rfl⟩

theorem journal_run (ops : List (Op Scan)) : Journal env ops := by
  induction ops using List.reverseRecOn with
  | nil =>
      refine ⟨?_, ?_⟩
      · intro q r p a hreq
        simp [run, runFrom] at hreq
      · intro post hpost
        cases hpost
  | append_singleton ops op ih => exact ih.step op

end Journal

/-- A submission of the run is among those of the world. -/
theorem inserted_mem {ops : List (Op Scan)} {s : Submission} {p : Preflight}
    (h : Inserted env ops s p) (later : List (Op Scan)) :
    s ∈ (run env (ops ++ later)).submissions := by
  obtain ⟨before, op, after, rfl, hins, _⟩ := h
  have hsplit : before ++ op :: after ++ later = (before ++ [op]) ++ (after ++ later) := by simp
  rw [hsplit, run_append]
  refine Transition.run_invariant (I := fun world => s ∈ world.submissions) (step env) ?_ ?_ _
  · intro world op' hmem
    rcases step_requests env world op' with hquiet | ⟨_, _, _, hstep⟩ | ⟨_, _, hins', _⟩ |
      ⟨_, _, _, _, hsend⟩
    · rw [hquiet.submissions]
      exact hmem
    · rw [hstep]
      exact hmem
    · rw [hins'.submissions]
      exact List.mem_append_left _ hmem
    · rw [hsend.step]
      exact hmem
  · rw [run_concat, hins.submissions]
    exact List.mem_append_right _ (List.mem_singleton.mpr rfl)

/-- **The broadcast protocol.**  Whatever the interleaving, every POST comes
    after the insertion of its own attempt for exactly the bytes it sends, and
    the attempt's row is still there; the attempts of a draft form one chain of
    at most 64 in which every retry was acknowledged; two submissions of a draft
    that name the same previous attempt are one; and an acknowledgement sets the
    flag of its own row. -/
theorem run_broadcast_protocol (ops : List (Op Scan)) :
    (∀ post ∈ (run env ops).posts, Sent env ops post ∧
      (∃ s ∈ (run env ops).submissions, s.requestId = post.requestId ∧
        s.attemptId = post.attemptId) ∧
      ∃ a, (run env ops).db.broadcastAttempts[post.attemptId]? = some a ∧
        a.walletId = post.walletId ∧ a.draftId = post.draftId) ∧
    (∀ w d : String,
      attemptIds (run env ops).db w d =
        (submissionsOf (run env ops) w d).map Submission.attemptId ∧
      Linked none (submissionsOf (run env ops) w d) ∧
      (attempts (run env ops).db w d).length ≤ 64) ∧
    (∀ s ∈ (run env ops).submissions, ∀ s' ∈ (run env ops).submissions,
      s.request.walletId = s'.request.walletId → s.request.draftId = s'.request.draftId →
      s.request.previousAttempt = s'.request.previousAttempt → s = s') ∧
    (∀ (q : Nat) (response : Option String),
      (run env (ops ++ [.acknowledge q response])).db = (run env ops).db ∨
      ∃ r p a row, (run env ops).requests[q]? = some { request := r, phase := .posted p a } ∧
        (run env ops).db.broadcastAttempts[a]? = some row ∧ row.walletId = r.walletId ∧
        row.draftId = r.draftId ∧
        (run env (ops ++ [.acknowledge q response])).db = { (run env ops).db with
          broadcastAttempts :=
            (run env ops).db.broadcastAttempts.insert a { row with acknowledged := true } }) := by
  have hchain := chained_run env ops
  refine ⟨?_, ?_, fun s hs s' hs' hw hd hsame => hchain.unique hs hs' hw hd hsame, ?_⟩
  · intro post hpost
    have hsent := (journal_run ops).posts post hpost
    obtain ⟨before, after, s, p, hops, hins, hq, ha, hw, hd, hbody⟩ := hsent
    have hmem : s ∈ (run env ops).submissions := by
      rw [hops]
      exact inserted_mem env hins _
    refine ⟨⟨before, after, s, p, hops, hins, hq, ha, hw, hd, hbody⟩, ⟨s, hmem, hq, ha⟩, ?_⟩
    apply mem_attemptIds.mp
    rw [hchain.ids]
    refine List.mem_map.mpr ⟨s, ?_, ha⟩
    simp [submissionsOf, hmem, hw, hd]
  · intro w d
    refine ⟨hchain.ids w d, hchain.linked w d, ?_⟩
    simpa [attemptIds] using hchain.bounded w d
  · intro q response
    rw [run_concat]
    change ((run env ops).acknowledge q response).db = _ ∨ ∃ r p a row, _ ∧ _ ∧ _ ∧ _ ∧
      ((run env ops).acknowledge q response).db = _
    unfold World.acknowledge
    split
    · rename_i r p a hreq
      simp only [World.endRequest]
      split_ifs
      · unfold Broadcast.acknowledge
        split
        · rename_i row hrow
          split_ifs with hkey
          · exact .inr ⟨r, p, a, row, hreq, hrow, hkey.1, hkey.2, rfl⟩
          · exact .inl rfl
        · exact .inl rfl
      · exact .inl rfl
    · exact .inl rfl

end Protocol
end Tundra
