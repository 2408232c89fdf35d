/-
  Tundra.Inputs

  What the importer reads from a text: the rows of one or two lines, and the
  descriptor of a row with its checksum.
-/

import Tundra.Descriptor

namespace Tundra

/-! Texts of one line -/

/-- Printable ASCII without white space, and not empty. -/
structure OneWord (s : String) : Prop where
  ne_empty : s ≠ ""
  ascii : ∀ c ∈ s.toList, c.val < 128
  word : ∀ c ∈ s.toList, isWhitespace c = false

theorem OneWord.trim {s : String} (h : OneWord s) : trim s = s :=
  trim_of_ends (fun c hc => h.word c (List.mem_of_mem_head? hc))
    (fun c hc => h.word c (List.mem_of_mem_getLast? hc))

theorem OneWord.toList_ne_nil {s : String} (h : OneWord s) : s.toList ≠ [] := by
  intro hnil
  exact h.ne_empty (String.toList_inj.mp hnil)

/-- No character of a word ends a line. -/
theorem OneWord.no_newline {s : String} (h : OneWord s) : '\n' ∉ s.toList ∧ '\r' ∉ s.toList := by
  constructor
  · intro hmem
    exact absurd (h.word _ hmem) (by decide)
  · intro hmem
    exact absurd (h.word _ hmem) (by decide)

theorem stripReturn_of_notMem {line : List Char} (h : '\r' ∉ line) : stripReturn line = line := by
  refine if_neg fun hlast => h ?_
  exact List.mem_of_mem_getLast? hlast

/-- The first line ends at the first line feed. -/
theorem linesFrom_append {line : List Char} (current rest : List Char) (h : '\n' ∉ line) :
    linesFrom current (line ++ '\n' :: rest) =
      String.ofList (stripReturn (current.reverse ++ line)) :: linesFrom [] rest := by
  induction line generalizing current with
  | nil =>
      rw [List.append_nil, List.nil_append]
      rfl
  | cons c line ih =>
      rw [List.mem_cons, not_or] at h
      obtain ⟨hc, hline⟩ := h
      rw [List.cons_append, linesFrom, ih (c :: current) hline, List.reverse_cons,
        List.append_assoc, List.singleton_append]
      exact fun hnew => hc hnew.symm

theorem linesFrom_last {line : List Char} (current : List Char) (h : '\n' ∉ line)
    (hne : current.reverse ++ line ≠ []) :
    linesFrom current line = [String.ofList (current.reverse ++ line)] := by
  induction line generalizing current with
  | nil =>
      rw [List.append_nil] at hne
      have hcurrent : current ≠ [] := fun hnil => hne (by rw [hnil, List.reverse_nil])
      rw [linesFrom, if_neg hcurrent, List.append_nil]
  | cons c line ih =>
      rw [List.mem_cons, not_or] at h
      obtain ⟨hc, hline⟩ := h
      have hsplit : (c :: current).reverse ++ line = current.reverse ++ c :: line := by
        rw [List.reverse_cons, List.append_assoc, List.singleton_append]
      rw [linesFrom, ih (c :: current) hline (by rw [hsplit]; exact hne), hsplit]
      exact fun hnew => hc hnew.symm

/-- The lines of two words. -/
theorem lines_pair {a b : String} (ha : OneWord a) (hb : OneWord b) :
    lines (a ++ "\n" ++ b) = [a, b] := by
  have hchars : (a ++ "\n" ++ b).toList = a.toList ++ '\n' :: b.toList := by
    simp
  have hsecond : [].reverse ++ b.toList ≠ [] := hb.toList_ne_nil
  rw [lines, hchars, linesFrom_append [] _ ha.no_newline.1,
    linesFrom_last [] hb.no_newline.1 hsecond, List.reverse_nil, List.nil_append, List.nil_append,
    stripReturn_of_notMem ha.no_newline.2, String.ofList_toList, String.ofList_toList]

theorem lines_word {a : String} (ha : OneWord a) : lines a = [a] := by
  have hone : [].reverse ++ a.toList ≠ [] := ha.toList_ne_nil
  rw [lines, linesFrom_last [] ha.no_newline.1 hone, List.reverse_nil, List.nil_append,
    String.ofList_toList]

namespace Descriptors

open Checked

variable {State Wallet Scan : Type} (env : Env State Wallet Scan)

/-! Inputs of one or two lines -/

/-- The rows of a text that is not JSON. -/
theorem inputDescriptors_text {input : String} {c : Char} {rest : List Char} (network : Network)
    (hsize : input.utf8ByteSize ≤ maxDescriptorBytes) (htrim : trim input = input)
    (hchars : input.toList = c :: rest) (hbom : c ≠ '\ufeff') (hbrace : c ≠ '\x7b') {rows : List String}
    (hrows : ((lines input).map trim).filter (· ≠ "") = rows)
    (hlength : 1 ≤ rows.length ∧ rows.length ≤ 2) :
    inputDescriptors env input network = .ok rows := by
  have hdrop : input.toList.dropWhile (· = '\ufeff') = input.toList := by
    refine dropWhile_of_head fun d hd => ?_
    rw [hchars, List.head?_cons, Option.some.injEq] at hd
    exact decide_eq_false (hd ▸ hbom)
  have hhead : input.toList.head? ≠ some '\x7b' := by
    rw [hchars, List.head?_cons, ne_eq, Option.some.injEq]
    exact hbrace
  simp only [inputDescriptors, require_of hsize, ok_bind, htrim, hdrop, String.ofList_toList,
    if_pos hhead, hrows, require_of hlength]

/-- The first character of a word is no byte order mark. -/
theorem head_of_word {a : String} (ha : OneWord a) :
    ∃ c rest, a.toList = c :: rest ∧ c ≠ '\ufeff' := by
  obtain ⟨c, rest, hchars⟩ := List.exists_cons_of_ne_nil ha.toList_ne_nil
  refine ⟨c, rest, hchars, ?_⟩
  rintro rfl
  have hascii := ha.ascii '\ufeff' (by rw [hchars]; exact List.mem_cons_self)
  exact absurd hascii (by decide)

theorem inputDescriptors_pair {a b : String} (network : Network) (ha : OneWord a) (hb : OneWord b)
    (hbrace : a.toList.head? ≠ some '\x7b')
    (hsize : (a ++ "\n" ++ b).utf8ByteSize ≤ maxDescriptorBytes) :
    inputDescriptors env (a ++ "\n" ++ b) network = .ok [a, b] := by
  obtain ⟨c, rest, hchars, hbom⟩ := head_of_word ha
  have hall : (a ++ "\n" ++ b).toList = c :: (rest ++ '\n' :: b.toList) := by
    simp [hchars]
  have hends : trim (a ++ "\n" ++ b) = a ++ "\n" ++ b := by
    refine trim_of_ends (fun d hd => ?_) (fun d hd => ?_)
    · rw [hall, List.head?_cons, Option.some.injEq] at hd
      exact hd ▸ ha.word c (by rw [hchars]; exact List.mem_cons_self)
    · have hlast : (a ++ "\n" ++ b).toList = (a.toList ++ ['\n']) ++ b.toList := by
        simp
      rw [hlast, List.getLast?_append_of_ne_nil _ hb.toList_ne_nil] at hd
      exact hb.word d (List.mem_of_mem_getLast? hd)
  rw [hchars, List.head?_cons, ne_eq, Option.some.injEq] at hbrace
  refine inputDescriptors_text env network hsize hends hall hbom hbrace ?_ (by simp)
  rw [lines_pair ha hb]
  simp only [List.map_cons, List.map_nil, ha.trim, hb.trim]
  rw [List.filter_cons_of_pos (by simpa using ha.ne_empty),
    List.filter_cons_of_pos (by simpa using hb.ne_empty), List.filter_nil]

theorem inputDescriptors_word {a : String} (network : Network) (ha : OneWord a)
    (hbrace : a.toList.head? ≠ some '\x7b') (hsize : a.utf8ByteSize ≤ maxDescriptorBytes) :
    inputDescriptors env a network = .ok [a] := by
  obtain ⟨c, rest, hchars, hbom⟩ := head_of_word ha
  rw [hchars, List.head?_cons, ne_eq, Option.some.injEq] at hbrace
  refine inputDescriptors_text env network hsize ha.trim hchars hbom hbrace ?_ (by simp)
  rw [lines_word ha, List.map_cons, List.map_nil, ha.trim,
    List.filter_cons_of_pos (by simpa using ha.ne_empty), List.filter_nil]

/-- A JSON text is read as its value. -/
theorem inputDescriptors_json {input : String} {rest : List Char} {v : Json} (network : Network)
    (hsize : input.utf8ByteSize ≤ maxDescriptorBytes) (htrim : trim input = input)
    (hchars : input.toList = '\x7b' :: rest) (hparse : env.parseJson input = some v) :
    inputDescriptors env input network = jsonDescriptors v network := by
  have hdrop : input.toList.dropWhile (· = '\ufeff') = input.toList := by
    refine dropWhile_of_head fun d hd => ?_
    rw [hchars, List.head?_cons, Option.some.injEq] at hd
    exact decide_eq_false (hd ▸ by decide)
  have hhead : ¬ input.toList.head? ≠ some '\x7b' := by
    rw [hchars, List.head?_cons]
    exact fun hne => hne rfl
  have hvalue : okOr (env.parseJson input) (Error.invalidInput "descriptor JSON") = .ok v := by
    rw [hparse]
    rfl
  simp only [inputDescriptors, require_of hsize, ok_bind, htrim, hdrop, String.ofList_toList,
    if_neg hhead, hvalue]

/-- The list of a receive and a change descriptor. -/
def descriptorList (receive change : String) : Json :=
  .object [("descriptors", .array
    [.object [("desc", .string receive), ("internal", .bool false)],
      .object [("desc", .string change), ("internal", .bool true)]])]

theorem jsonDescriptors_list (receive change : String) (network : Network) :
    jsonDescriptors (descriptorList receive change) network = .ok [receive, change] := rfl

/-- A text with its checksum. -/
structure Checksummed (s : String) : Prop extends OneWord s where
  size : s.utf8ByteSize ≤ maxDescriptorBytes
  checksum : ∃ body checksum, splitOnce '#' s.toList = some (body, checksum) ∧ checksum.length = 8
  single : s.toList.count '#' = 1

theorem parsePublic_checksummed {s : String} (h : Checksummed s) :
    parsePublic env s = okOr (env.parseDescriptor s) .descriptor := by
  obtain ⟨body, checksum, hsplit, hlength⟩ := h.checksum
  have hplain : s.utf8ByteSize ≤ maxDescriptorBytes ∧ (∀ c ∈ s.toList, c.val < 128) ∧
      ∀ c ∈ s.toList, isWhitespace c = false := ⟨h.size, h.ascii, h.word⟩
  have hsum : checksum.length = 8 ∧ s.toList.count '#' = 1 := ⟨hlength, h.single⟩
  have hfound : okOr (splitOnce '#' s.toList) Error.descriptor = .ok (body, checksum) := by
    rw [hsplit]
    rfl
  simp only [parsePublic, h.trim, require_of hplain, ok_bind, hfound, require_of hsum]

end Descriptors
end Tundra
