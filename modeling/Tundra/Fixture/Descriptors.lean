/-
  Tundra.Fixture.Descriptors

  The fixture reads back the descriptors it writes: every account key of a
  supported policy, on either branch, with and without the checksum.
-/

import Tundra.Writings
import Tundra.Fixture.Env
import Tundra.Fixture.Json

namespace Tundra
namespace Fixture

open Ascii Wire Descriptors

/-! ## Key origins -/

theorem isDigit_toDigits {n : Nat} {c : Char} (h : c ∈ Nat.toDigits 10 n) : c.isDigit = true :=
  Nat.isDigit_of_mem_toDigits (by omega) (by omega) h

/-- The characters of a path. -/
theorem stepChars_mem {step : UInt32} {c : Char} (h : c ∈ stepChars step) :
    c.isDigit = true ∨ c = '\'' := by
  unfold stepChars at h
  split_ifs at h
  · rcases List.mem_append.mp h with h | h
    · exact .inl (isDigit_toDigits h)
    · exact .inr (List.mem_singleton.mp h)
  · exact .inl (isDigit_toDigits h)

theorem stepChars_ne_nil (step : UInt32) : stepChars step ≠ [] := by
  unfold stepChars
  split_ifs
  · simp
  · exact Nat.toDigits_ne_nil

theorem readStep_stepChars (step : UInt32) : readStep (stepChars step) = some step := by
  have hstep : step.toNat < 2 ^ 32 := step.toNat_lt
  by_cases hhard : 0x80000000 ≤ step.toNat
  · have hbound : step.toNat - 0x80000000 < 0x80000000 := by omega
    have hlast : (Nat.toDigits 10 (step.toNat - 0x80000000) ++ ['\'']).getLast? = some '\'' := by simp
    have hsum : step.toNat - 0x80000000 + 0x80000000 = step.toNat := by omega
    rw [stepChars, if_pos hhard, readStep, if_pos (.inl hlast), List.dropLast_concat,
      readDecimal_toDigits, Option.filter_some, if_pos (by simpa using hbound), Option.map_some, hsum,
      UInt32.ofNat_toNat]
  · have hlast : ¬ ((Nat.toDigits 10 step.toNat).getLast? = some '\'' ∨
        (Nat.toDigits 10 step.toNat).getLast? = some 'h') := by
      rintro (h | h)
      · exact absurd (isDigit_toDigits (List.mem_of_mem_getLast? h)) (by decide)
      · exact absurd (isDigit_toDigits (List.mem_of_mem_getLast? h)) (by decide)
    rw [stepChars, if_neg hhard, readStep, if_neg hlast, readDecimal_toDigits, Option.filter_some,
      if_pos (by simpa using hhard), Option.map_some, UInt32.ofNat_toNat]

theorem pathChars_cons (step : UInt32) (path : List UInt32) : pathChars (step :: path) =
    '/' :: ['/'].intercalate ((step :: path).map stepChars) := by
  induction path generalizing step with
  | nil => simp [pathChars, List.intercalate]
  | cons next path ih =>
      have htail : pathChars (step :: next :: path) =
          '/' :: (stepChars step ++ pathChars (next :: path)) := by simp [pathChars]
      rw [htail, ih next, List.map_cons, List.map_cons, List.map_cons, List.intercalate_cons_cons]
      simp

theorem mapM_map {α β : Type} {f : β → Option α} {g : α → β} (h : ∀ a, f (g a) = some a)
    (l : List α) : (l.map g).mapM f = some l := by
  induction l with
  | nil => rfl
  | cons a l ih =>
      rw [List.map_cons, List.mapM_cons, h, ih]
      rfl

/-- A key origin is read back. -/
theorem parseKeySource_chars {k : KeySource} (h : k.path ≠ []) :
    parseKeySource (String.ofList (hexChars (leBytes 4 k.fingerprint.toNat).reverse))
      (String.ofList (['/'].intercalate (k.path.map stepChars))) = some k := by
  obtain ⟨fingerprint, path⟩ := k
  obtain ⟨step, rest, rfl⟩ := List.exists_cons_of_ne_nil h
  have hfingerprint : (readHex (hexChars (leBytes 4 fingerprint.toNat).reverse)).filter
      (fun bytes => bytes.length = 4) = some (leBytes 4 fingerprint.toNat).reverse := by
    rw [readHex_hexChars, Option.filter_some, if_pos (by simp)]
  have hne : (step :: rest).map stepChars ≠ [] := by simp
  have hslash : ∀ l ∈ (step :: rest).map stepChars, '/' ∉ l := by
    intro l hl hin
    obtain ⟨s, -, rfl⟩ := List.mem_map.mp hl
    rcases stepChars_mem hin with h | h
    · exact absurd h (by decide)
    · exact absurd h (by decide)
  have hparts := List.splitOn_intercalate '/' hslash hne
  obtain ⟨c, tail, hhead⟩ := List.exists_cons_of_ne_nil (stepChars_ne_nil step)
  have hchars : ∃ tail', ['/'].intercalate ((step :: rest).map stepChars) = c :: tail' := by
    cases rest with
    | nil => exact ⟨tail, by simp [List.intercalate, hhead]⟩
    | cons next rest =>
        rw [List.map_cons, List.map_cons, List.intercalate_cons_cons, hhead]
        exact ⟨_, rfl⟩
  obtain ⟨tail', hchars⟩ := hchars
  have hpath : ¬ (String.ofList (['/'].intercalate ((step :: rest).map stepChars)) = "" ∨
      String.ofList (['/'].intercalate ((step :: rest).map stepChars)) = "m") := by
    rw [hchars]
    rintro (h | h)
    · have hempty := congrArg String.toList h
      rw [String.toList_ofList] at hempty
      cases hempty
    · have hm := congrArg String.toList h
      rw [String.toList_ofList] at hm
      obtain ⟨rfl, -⟩ := List.cons.inj hm
      have hfirst : 'm' ∈ stepChars step := by
        rw [hhead]
        exact List.mem_cons_self ..
      rcases stepChars_mem hfirst with h | h
      · exact absurd h (by decide)
      · exact absurd h (by decide)
  have hvalue : leValue (leBytes 4 fingerprint.toNat) = fingerprint.toNat :=
    leValue_leBytes (Nat.lt_of_lt_of_eq fingerprint.toNat_lt (by decide))
  simp only [parseKeySource, String.toList_ofList, hfingerprint, Option.bind_eq_bind,
    Option.bind_some, if_neg hpath, hparts, mapM_map readStep_stepChars, List.reverse_reverse, hvalue,
    UInt32.ofNat_toNat]

/-! ## Keys -/

theorem hexChars_mem {bytes : Bytes} {c : Char} (h : c ∈ hexChars bytes) :
    c.isAlphanum = true := by
  have hdigit : ∀ n < 16, (hexChar n).isAlphanum = true := by decide
  obtain ⟨b, -, hc⟩ := List.mem_flatMap.mp h
  have hb : b.toNat < 256 := b.toNat_lt_size
  rw [hexPair, List.mem_cons, List.mem_singleton] at hc
  rcases hc with rfl | rfl
  · exact hdigit _ (by omega)
  · exact hdigit _ (by omega)

theorem keySourceChars_mem {k : KeySource} {c : Char} (h : c ∈ keySourceChars k) :
    c.isAlphanum = true ∨ c = '/' ∨ c = '\'' := by
  rcases List.mem_append.mp h with h | h
  · exact .inl (hexChars_mem h)
  · obtain ⟨step, -, hc⟩ := List.mem_flatMap.mp h
    rcases List.mem_cons.mp hc with rfl | hc
    · exact .inr (.inl rfl)
    · rcases stepChars_mem hc with hdigit | rfl
      · refine .inl ?_
        rw [Char.isAlphanum, hdigit, Bool.or_true]
      · exact .inr (.inr rfl)

theorem xpubChars_mem {x : Xpub} {c : Char} (h : c ∈ xpubChars x) : c.isAlphanum = true := by
  unfold xpubChars at h
  split_ifs at h
  · have haccount : Fixture.accountText.Forall (fun c => c.isAlphanum = true) := by decide
    exact List.forall_iff_forall_mem.mp haccount c h
  · exact hexChars_mem h

theorem accountXpub_length : accountXpub.length = 78 := by decide

theorem readXpub_xpubChars {x : Xpub} (h : x.length = 78) : readXpub (xpubChars x) = some x := by
  by_cases hx : x = accountXpub
  · rw [xpubChars, if_pos hx, readXpub, if_pos rfl, hx]
  · have hlen : hexChars x ≠ Fixture.accountText := by
      intro heq
      have hlength := congrArg List.length heq
      rw [length_hexChars, h] at hlength
      exact absurd hlength (by decide)
    rw [xpubChars, if_neg hx, readXpub, if_neg hlen, readHex_hexChars, Option.filter_some,
      if_pos (by simpa using h)]

theorem readXpub_length {chars : List Char} {x : Xpub} (h : readXpub chars = some x) :
    x.length = 78 := by
  unfold readXpub at h
  split_ifs at h
  · cases h
    exact accountXpub_length
  · simpa using (Option.filter_eq_some_iff.mp h).2

theorem alphanum_notMem {l : List Char} (h : ∀ c ∈ l, c.isAlphanum = true) {d : Char}
    (hd : d.isAlphanum = false) : d ∉ l :=
  fun hin => alphanum_ne (h d hin) hd rfl

/-- The characters of an account key. -/
def accountKeyChars (branch : List Char) (a : Account) : List Char :=
  '[' :: (keySourceChars a.origin ++ ']' :: (xpubChars a.xkey ++ '/' :: branch))

theorem toList_keyText (branch : String) (a : Account) :
    (keyText crates branch a).toList = accountKeyChars (branch.toList ++ ['/', '*']) a := by
  show ("[" ++ String.ofList (keySourceChars a.origin) ++ "]" ++ String.ofList (xpubChars a.xkey) ++
    "/" ++ branch ++ "/*").toList = _
  simp [accountKeyChars]

/-- Every account key is read as its parts. -/
theorem readKey_account (branch : List Char) (a : Account) :
    readKey (accountKeyChars branch a) =
      (let account (branch : UInt32) : DescriptorPublicKey :=
        .xpub { origin := some a.origin, xkey := a.xkey, derivationPath := [branch],
                wildcard := .unhardened }
      if branch = "0/*".toList then some (account 0)
      else if branch = "1/*".toList then some (account 1)
      else if branch = "<0;1>/*".toList then
        some (.other (String.ofList (accountKeyChars branch a)))
      else none) := by
  have hclose : ']' ∉ keySourceChars a.origin := by
    intro hin
    rcases keySourceChars_mem hin with h | h | h
    · exact alphanum_ne h (by decide) rfl
    · exact absurd h (by decide)
    · exact absurd h (by decide)
  obtain ⟨step, rest, hpath⟩ := List.exists_cons_of_ne_nil a.hasPath
  have hsource : splitOnce '/' (keySourceChars a.origin) =
      some (hexChars (leBytes 4 a.origin.fingerprint.toNat).reverse,
        ['/'].intercalate (a.origin.path.map stepChars)) := by
    rw [keySourceChars, hpath, pathChars_cons, ← hpath]
    exact splitOnce_append _ (alphanum_notMem (fun c hc => hexChars_mem hc) (by decide))
  have hxpub : splitOnce '/' (xpubChars a.xkey ++ '/' :: branch) = some (xpubChars a.xkey, branch) :=
    splitOnce_append _ (alphanum_notMem (fun c hc => xpubChars_mem hc) (by decide))
  simp only [readKey, accountKeyChars, splitOnce_append _ hclose, hsource, hxpub,
    parseKeySource_chars a.hasPath, readXpub_xpubChars a.size, Option.bind_eq_bind, Option.bind_some]

theorem readKey_accountKey (k : KeychainKind) (a : Account) :
    readKey (keyText crates k.branchText a).toList = some (accountKey k a) := by
  rw [toList_keyText, readKey_account]
  cases k
  · rfl
  · rfl

theorem readKey_multipath (a : Account) :
    readKey (keyText crates "<0;1>" a).toList = some (multipathKey crates a) := by
  have hchars := toList_keyText "<0;1>" a
  rw [hchars, readKey_account, multipathKey, ← hchars, String.ofList_toList]
  rfl

theorem accountKeyChars_plain {branch : List Char} (a : Account) {d : Char}
    (hd : d.isAlphanum = false) (hne : d ∉ ['[', ']', '/', '\'']) (hbranch : d ∉ branch) :
    d ∉ accountKeyChars branch a := by
  simp only [List.mem_cons, List.not_mem_nil, or_false, not_or] at hne
  obtain ⟨hopen, hclose, hslash, hmark⟩ := hne
  simp only [accountKeyChars, List.mem_cons, List.mem_append, not_or]
  refine ⟨hopen, fun hin => ?_, hclose, alphanum_notMem (fun c hc => xpubChars_mem hc) hd, hslash,
    hbranch⟩
  rcases keySourceChars_mem hin with h | h | h
  · exact alphanum_ne h hd rfl
  · exact hslash h
  · exact hmark h

/-! ## Descriptors -/

theorem stripPrefix_append (pattern : String) (rest : List Char) :
    stripPrefix pattern (pattern.toList ++ rest) = some rest := by
  rw [stripPrefix, if_pos (List.isPrefixOf_iff_prefix.mpr (List.prefix_append _ _)),
    ← String.length_toList, List.drop_left]

theorem stripSuffix_append (pattern : String) (front : List Char) :
    stripSuffix pattern (front ++ pattern.toList) = some front := by
  have hlen : (front ++ pattern.toList).length - pattern.length = front.length := by
    rw [List.length_append, String.length_toList]
    omega
  rw [stripSuffix, if_pos (List.isSuffixOf_iff_suffix.mpr (List.suffix_append _ _)), hlen,
    List.take_left]

theorem splitOnce_eq_none {c : Char} {l : List Char} (h : c ∉ l) : splitOnce c l = none := by
  induction l with
  | nil => rfl
  | cons x l ih =>
      rw [List.mem_cons, not_or] at h
      obtain ⟨hne, hrest⟩ := h
      rw [splitOnce, if_neg (Ne.symm hne), ih hrest, Option.map_none]

/-- How the keys of a policy are written and read. -/
structure Spelled (branch : String) (key : Account → DescriptorPublicKey) : Prop where
  written : ∀ a, keyChars (key a) = (keyText crates branch a).toList
  read : ∀ a, readKey (keyText crates branch a).toList = some (key a)
  plain : ',' ∉ branch.toList ∧ '#' ∉ branch.toList

theorem spelled_accountKey (k : KeychainKind) : Spelled k.branchText (accountKey k) where
  written a := by
    rw [toList_keyText]
    cases k
    · simp [accountKey, keyChars, accountKeyChars, pathChars, stepChars, wildcardChars,
        KeychainKind.branch, KeychainKind.branchText]
    · have hone : Nat.toDigits 10 1 = ['1'] := by decide
      simp [accountKey, keyChars, accountKeyChars, pathChars, stepChars, wildcardChars,
        KeychainKind.branch, KeychainKind.branchText, hone]
  read := readKey_accountKey k
  plain := by cases k <;> decide

theorem spelled_multipath : Spelled "<0;1>" (multipathKey crates) where
  written _ := rfl
  read := readKey_multipath
  plain := by decide

theorem checksum_shape (body : List Char) :
    (checksum body).length = 8 ∧ (checksum body).Forall (fun c => c.isAlphanum = true) := by
  unfold checksum
  split_ifs
  · decide
  · decide
  · decide

section Bodies

variable {p : Policy} {branch : String} {key : Account → DescriptorPublicKey} {accounts : List Account}

theorem Spelled.keyText_plain (h : Spelled branch key) (a : Account) :
    ',' ∉ (keyText crates branch a).toList ∧ '#' ∉ (keyText crates branch a).toList := by
  rw [toList_keyText]
  constructor
  · exact accountKeyChars_plain a (by decide) (by decide) (by simp [h.plain.1])
  · exact accountKeyChars_plain a (by decide) (by decide) (by simp [h.plain.2])

theorem Spelled.bodyChars (h : Spelled branch key) (hlength : accounts.length = keyCount p) :
    bodyChars (describe p (accounts.map key)) =
      (bodyText p (accounts.map (keyText crates branch))).toList := by
  cases p with
  | singleSig =>
      obtain ⟨a, rfl⟩ := List.length_eq_one_iff.mp hlength
      show ['w', 'p', 'k', 'h', '('] ++ (keyChars (key a) ++ [')']) =
        ("wpkh(" ++ keyText crates branch a ++ ")").toList
      rw [h.written a]
      simp
  | twoOfThree =>
      obtain ⟨a, b, c, rfl⟩ := List.length_eq_three.mp hlength
      show "wsh(sortedmulti(".toList ++ (Nat.toDigits 10 2 ++
        ([key a, key b, key c].flatMap (fun key => ',' :: keyChars key) ++ [')', ')'])) =
        ("wsh(sortedmulti(2," ++ (keyText crates branch a ++ "," ++ keyText crates branch b ++ "," ++
          keyText crates branch c) ++ "))").toList
      have hdigits : Nat.toDigits 10 2 = ['2'] := by decide
      simp [hdigits, h.written]

/-- The descriptor of a policy is read back. -/
theorem Spelled.readBody (h : Spelled branch key) (hlength : accounts.length = keyCount p) :
    readBody (bodyText p (accounts.map (keyText crates branch))).toList =
      some (describe p (accounts.map key)) := by
  cases p with
  | singleSig =>
      obtain ⟨a, rfl⟩ := List.length_eq_one_iff.mp hlength
      have htext : (bodyText .singleSig ([a].map (keyText crates branch))).toList =
          "wpkh(".toList ++ ((keyText crates branch a).toList ++ ")".toList) := by
        show ("wpkh(" ++ keyText crates branch a ++ ")").toList = _
        simp
      rw [htext, Fixture.readBody, stripPrefix_append, Option.bind_some, stripSuffix_append]
      show (readKey (keyText crates branch a).toList).map PublicDescriptor.wpkh = _
      rw [h.read a]
      rfl
  | twoOfThree =>
      obtain ⟨a, b, c, rfl⟩ := List.length_eq_three.mp hlength
      let keys := [a, b, c].map (fun a => (keyText crates branch a).toList)
      have htext : (bodyText .twoOfThree ([a, b, c].map (keyText crates branch))).toList =
          "wsh(sortedmulti(".toList ++ (("2".toList ++ ',' :: [','].intercalate keys) ++
            "))".toList) := by
        show ("wsh(sortedmulti(2," ++ (keyText crates branch a ++ "," ++ keyText crates branch b ++
          "," ++ keyText crates branch c) ++ "))").toList = _
        simp [keys, List.intercalate]
      have hother : (stripPrefix "wpkh(" ("wsh(sortedmulti(".toList ++
          (("2".toList ++ ',' :: [','].intercalate keys) ++ "))".toList))) = none := by
        have hhead : "wsh(sortedmulti(".toList = 'w' :: 's' :: "h(sortedmulti(".toList := by decide
        have hpattern : "wpkh(".toList = 'w' :: 'p' :: "kh(".toList := by decide
        rw [stripPrefix, hhead, hpattern, if_neg]
        simp [List.isPrefixOf]
      have hcomma : ∀ l ∈ keys, ',' ∉ l := by
        intro l hl
        obtain ⟨x, -, rfl⟩ := List.mem_map.mp hl
        exact (h.keyText_plain x).1
      have hcount : ',' ∉ "2".toList := by decide
      have htwo : readDecimal "2".toList = some 2 := by decide
      have hkeys : keys.mapM readKey = some ([a, b, c].map key) := by
        simp only [keys, List.map_cons, List.map_nil, List.mapM_cons, List.mapM_nil, h.read,
          Option.pure_def, Option.bind_eq_bind, Option.bind_some]
      rw [htext, Fixture.readBody, hother]
      simp only [Option.bind_none, stripPrefix_append, Option.bind_some, stripSuffix_append,
        splitOnce_append _ hcount, htwo, List.splitOn_intercalate ',' hcomma (by simp [keys]), hkeys,
        Option.bind_eq_bind]
      rfl

theorem Spelled.bodyText_plain (h : Spelled branch key) (hlength : accounts.length = keyCount p) :
    '#' ∉ (bodyText p (accounts.map (keyText crates branch))).toList := by
  have hkey := fun a => (h.keyText_plain a).2
  cases p with
  | singleSig =>
      obtain ⟨a, rfl⟩ := List.length_eq_one_iff.mp hlength
      show '#' ∉ ("wpkh(" ++ keyText crates branch a ++ ")").toList
      simp [hkey]
  | twoOfThree =>
      obtain ⟨a, b, c, rfl⟩ := List.length_eq_three.mp hlength
      show '#' ∉ ("wsh(sortedmulti(2," ++ (keyText crates branch a ++ "," ++
        keyText crates branch b ++ "," ++ keyText crates branch c) ++ "))").toList
      simp [hkey]

theorem Spelled.parse_body (h : Spelled branch key) (hlength : accounts.length = keyCount p) :
    parseDescriptor (bodyText p (accounts.map (keyText crates branch))) =
      some (describe p (accounts.map key)) := by
  rw [parseDescriptor, splitOnce_eq_none (h.bodyText_plain hlength)]
  exact h.readBody hlength

theorem Spelled.parse_display (h : Spelled branch key) (hlength : accounts.length = keyCount p) :
    parseDescriptor (displayDescriptor (describe p (accounts.map key))) =
      some (describe p (accounts.map key)) := by
  have hplain := h.bodyText_plain hlength
  rw [← h.bodyChars hlength] at hplain
  rw [parseDescriptor, displayDescriptor, String.toList_ofList, splitOnce_append _ hplain]
  dsimp only
  rw [if_pos rfl, h.bodyChars hlength, h.readBody hlength]

/-- A descriptor is displayed as its body and a checksum. -/
theorem Spelled.display_body (h : Spelled branch key) (hlength : accounts.length = keyCount p) :
    ∃ sum : String, sum.length = 8 ∧ (∀ c ∈ sum.toList, c.isAlphanum = true) ∧
      displayDescriptor (describe p (accounts.map key)) =
        bodyText p (accounts.map (keyText crates branch)) ++ "#" ++ sum := by
  obtain ⟨hlen, hchars⟩ := checksum_shape (Fixture.bodyChars (describe p (accounts.map key)))
  refine ⟨String.ofList (checksum (Fixture.bodyChars (describe p (accounts.map key)))), ?_, ?_, ?_⟩
  · rw [String.length_ofList, hlen]
  · rw [String.toList_ofList]
    exact List.forall_iff_forall_mem.mp hchars
  · rw [displayDescriptor, ← String.toList_inj]
    simp only [String.toList_append, String.toList_ofList, ← h.bodyChars hlength, List.append_assoc]
    rfl

end Bodies

/-! ## The environment -/

theorem mem_of_mapM {α β : Type} {f : α → Option β} {l : List α} {l' : List β}
    (h : l.mapM f = some l') : ∀ b ∈ l', ∃ a ∈ l, f a = some b := by
  induction l generalizing l' with
  | nil =>
      cases h
      simp
  | cons a l ih =>
      simp only [List.mapM_cons, Option.bind_eq_bind, Option.bind_eq_some_iff, Option.pure_def,
        Option.some.injEq] at h
      obtain ⟨b, hb, rest, hrest, rfl⟩ := h
      intro b' hb'
      rcases List.mem_cons.mp hb' with rfl | hb'
      · exact ⟨a, List.mem_cons_self .., hb⟩
      · obtain ⟨a', ha', hf⟩ := ih hrest b' hb'
        exact ⟨a', List.mem_cons_of_mem _ ha', hf⟩

/-- A key is read with its 78 bytes. -/
theorem readKey_xpub {chars : List Char} {x : DescriptorXKey} (h : readKey chars = some (.xpub x)) :
    x.xkey.length = 78 := by
  unfold readKey at h
  split at h
  · simp only [Option.bind_eq_bind, Option.bind_eq_some_iff, Prod.exists] at h
    obtain ⟨_, _, -, _, _, -, _, -, _, _, -, xkey, hx, h⟩ := h
    split_ifs at h
    · cases h
      exact readXpub_length hx
    · cases h
      exact readXpub_length hx
    · cases h
  · cases h

theorem readBody_xpub {chars : List Char} {d : PublicDescriptor} (h : readBody chars = some d) :
    ∀ x, .xpub x ∈ d.keys → x.xkey.length = 78 := by
  intro x hx
  unfold readBody at h
  split at h
  · obtain ⟨key, hkey, rfl⟩ := Option.map_eq_some_iff.mp h
    rw [PublicDescriptor.keys, List.mem_singleton] at hx
    subst hx
    exact readKey_xpub hkey
  · simp only [Option.bind_eq_bind, Option.bind_eq_some_iff, Prod.exists, Option.some.injEq] at h
    obtain ⟨_, -, _, _, -, _, -, keys, hkeys, rfl⟩ := h
    obtain ⟨_, -, hkey⟩ := mem_of_mapM hkeys _ hx
    exact readKey_xpub hkey

theorem parseDescriptor_xpub {text : String} {d : PublicDescriptor}
    (h : parseDescriptor text = some d) : ∀ x, .xpub x ∈ d.keys → x.xkey.length = 78 := by
  unfold parseDescriptor at h
  split at h
  · split_ifs at h
    exact readBody_xpub h
  · exact readBody_xpub h

theorem keyRank_injective : Function.Injective keyRank := by
  have hmap : ∀ {α : Type} {f : α → Nat}, Function.Injective f → Function.Injective (List.map f) :=
    fun hf => List.map_injective_iff.mpr hf
  intro a b h
  cases a with
  | other text =>
      cases b with
      | other text' =>
          simp only [keyRank, List.cons.injEq, and_true, true_and] at h
          rw [String.toList_inj.mp (hmap (fun c c' hc => Char.toNat_inj.mp hc) h)]
      | xpub x => simp [keyRank] at h
  | xpub x =>
      cases b with
      | other text => simp [keyRank] at h
      | xpub y =>
          obtain ⟨origin, xkey, path, wildcard⟩ := x
          obtain ⟨origin', xkey', path', wildcard'⟩ := y
          simp only [keyRank, List.cons.injEq, and_true, true_and] at h
          obtain ⟨horigin, hxkey, hpath, hwildcard⟩ := h
          have hxkey' := hmap (fun _ _ => UInt8.toNat_inj.mp) hxkey
          have hpath' := hmap (fun _ _ => UInt32.toNat_inj.mp) hpath
          subst hxkey'
          subst hpath'
          have hwild : wildcard = wildcard' := by
            cases wildcard <;> cases wildcard' <;> first | rfl | simp at hwildcard
          have horig : origin = origin' := by
            cases origin with
            | none =>
                cases origin' with
                | none => rfl
                | some o => simp at horigin
            | some o =>
                cases origin' with
                | none => simp at horigin
                | some o' =>
                    obtain ⟨hf, hp⟩ := List.cons.inj horigin
                    have hf' := UInt32.toNat_inj.mp hf
                    have hp' := hmap (fun _ _ => UInt32.toNat_inj.mp) hp
                    obtain ⟨f, p⟩ := o
                    cases hf'
                    cases hp'
                    rfl
          rw [hwild, horig]

theorem sortKeys_perm (keys : List DescriptorPublicKey) : (sortKeys keys).Perm keys :=
  List.perm_insertionSort _ keys

theorem sortKeys_congr {keys keys' : List DescriptorPublicKey} (h : keys.Perm keys') :
    sortKeys keys = sortKeys keys' := by
  have htotal : Std.Total (fun a b : DescriptorPublicKey => keyRank a ≤ keyRank b) :=
    ⟨fun _ _ => le_total _ _⟩
  have htrans : IsTrans DescriptorPublicKey (fun a b => keyRank a ≤ keyRank b) :=
    ⟨fun _ _ _ => le_trans⟩
  exact (((sortKeys_perm keys).trans h).trans (sortKeys_perm keys').symm).eq_of_pairwise
    (fun _ _ _ _ hab hba => keyRank_injective (le_antisymm hab hba))
    (List.pairwise_insertionSort _ keys) (List.pairwise_insertionSort _ keys')

theorem length_stepChars (step : UInt32) : (stepChars step).length ≤ 11 := by
  have hstep : step.toNat < 2 ^ 32 := step.toNat_lt
  unfold stepChars
  split_ifs
  · have hdigits : (Nat.toDigits 10 (step.toNat - 0x80000000)).length ≤ 10 :=
      length_toDigits_le (by omega) (by omega)
    rw [List.length_append, List.length_singleton]
    omega
  · have hdigits : (Nat.toDigits 10 step.toNat).length ≤ 10 :=
      length_toDigits_le (by omega) (by omega)
    omega

theorem length_pathChars (path : List UInt32) : (pathChars path).length ≤ 12 * path.length := by
  induction path with
  | nil => rfl
  | cons step path ih =>
      have hsplit : pathChars (step :: path) = '/' :: stepChars step ++ pathChars path := rfl
      have hstep := length_stepChars step
      rw [hsplit, List.length_append, List.length_cons, List.length_cons]
      omega

theorem length_keySourceChars (k : KeySource) :
    (keySourceChars k).length ≤ 8 + 12 * k.path.length := by
  have hpath := length_pathChars k.path
  rw [keySourceChars, List.length_append, length_hexChars, List.length_reverse, leBytes_length]
  omega

/-- A key origin with a path is told from any other by its text. -/
theorem keySourceChars_inj {k k' : KeySource} (hk : k.path ≠ []) (hk' : k'.path ≠ [])
    (h : keySourceChars k = keySourceChars k') : k = k' := by
  have hsplit : ∀ k : KeySource, k.path ≠ [] → splitOnce '/' (keySourceChars k) =
      some (hexChars (leBytes 4 k.fingerprint.toNat).reverse,
        ['/'].intercalate (k.path.map stepChars)) := by
    intro k hk
    obtain ⟨step, rest, hpath⟩ := List.exists_cons_of_ne_nil hk
    rw [keySourceChars, hpath, pathChars_cons, ← hpath]
    exact splitOnce_append _ (alphanum_notMem (fun c hc => hexChars_mem hc) (by decide))
  have hparts := hsplit k hk
  rw [h, hsplit k' hk', Option.some.injEq, Prod.mk.injEq] at hparts
  have hread := parseKeySource_chars hk
  rw [← hparts.1, ← hparts.2, parseKeySource_chars hk', Option.some.injEq] at hread
  exact hread.symm

theorem xpubChars_inj {x x' : Xpub} (hx : x.length = 78) (hx' : x'.length = 78)
    (h : xpubChars x = xpubChars x') : x = x' := by
  have hread := readXpub_xpubChars hx
  rw [h, readXpub_xpubChars hx', Option.some.injEq] at hread
  exact hread.symm

theorem length_xpubChars {x : Xpub} (h : x.length = 78) : (xpubChars x).length ≤ 160 := by
  unfold xpubChars
  split_ifs
  · decide
  · rw [length_hexChars, h]
    omega

-- the record of crates is deeper than the default limit
set_option maxRecDepth 2000 in
/-- The environment with its descriptors. -/
def descriptorEnv : DescriptorEnv TestWallet TestWallet ChainScan where
  toEnv := env
  parseDescriptor_xpub _ _ := parseDescriptor_xpub
  xpubInfo_depth x := Nat.le_of_lt_succ (x.getD 4 0).toNat_lt_size
  displayKeySource_chars k c hc := keySourceChars_mem (k := k) (by simpa [env, crates] using hc)
  displayKeySource_length k := by
    show (String.ofList (keySourceChars k)).length ≤ _
    rw [String.length_ofList]
    exact length_keySourceChars k
  displayKeySource_inj k k' hk hk' h := keySourceChars_inj hk hk' (String.ofList_injective h)
  displayXpub_chars x c hc := xpubChars_mem (x := x) (by simpa [env, crates] using hc)
  displayXpub_length x hx := by
    show (String.ofList (xpubChars x)).length ≤ _
    rw [String.length_ofList]
    exact length_xpubChars hx
  displayXpub_inj x x' hx hx' h := xpubChars_inj hx hx' (String.ofList_injective h)
  sortKeys_perm := sortKeys_perm
  sortKeys_congr _ _ := sortKeys_congr
  descriptorBody_multipath p accounts hlength := by
    show String.ofList (bodyChars (describe p (accounts.map (multipathKey crates)))) =
      bodyText p (accounts.map (keyText crates "<0;1>"))
    rw [spelled_multipath.bodyChars hlength, String.ofList_toList]
  parseDescriptor_body p accounts k hlength := (spelled_accountKey k).parse_body hlength
  displayDescriptor_body p accounts k hlength := (spelled_accountKey k).display_body hlength
  parseDescriptor_display p accounts k hlength := (spelled_accountKey k).parse_display hlength
  descriptorPairJson_eq r c hr hc := by
    have hplain : ∀ s : String, (∀ x ∈ s.toList, x.val < 128 ∧ jsonChar x = [x]) →
        ∀ x ∈ s.toList, x ≠ '"' ∧ x ≠ '\\' := by
      intro s hs x hx
      constructor
      · rintro rfl
        exact absurd (hs _ hx).2 (by decide)
      · rintro rfl
        exact absurd (hs _ hx).2 (by decide)
    exact ⟨rfl, parse_pairJson (hplain r hr) (hplain c hc)⟩

end Fixture
end Tundra
