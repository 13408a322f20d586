import UiMarkup.Proofs.Lexing
import UiMarkup.Proofs.Partition
import UiMarkup.Proofs.Relocation

/-!
# Lexing restarts between lexemes

The first lexeme of a text depends on what follows it only as far as that lets it go on. It is read
in the same way if the text is cut off anywhere after it, so a text may be cut wherever a lexeme
starts and its two parts be read apart.

* `Lexeme.read_cut`: what follows a lexeme may be cut off.
* `lexemeStarts`: where the lexemes of a text start.
* `tokensFrom_append`: the tokens of a text, from those of its parts.
* `tokenize_restarts`: the tokens of a source, from those before and after such an offset.
-/

namespace UiMarkup

namespace Lexeme

/-! ## What follows a run of characters or a body -/

theorem mem_head?_of_prefix {u v : List Char} (h : u <+: v) {c : Char} (hc : c ∈ u.head?) :
    c ∈ v.head? := by
  obtain ⟨w, rfl⟩ := h
  cases u with
  | nil => cases hc
  | cons d u => exact hc

theorem takeWhile_cut {f : Char → Bool} {s u : List Char} (h : u <+: s.dropWhile f) :
    (s.takeWhile f ++ u).takeWhile f = s.takeWhile f ∧ (s.takeWhile f ++ u).dropWhile f = u := by
  refine takeWhile_append_stop List.all_takeWhile fun c hc => ?_
  have hstop := List.head?_dropWhile_not f s
  rwa [show (s.dropWhile f).head? = some c from mem_head?_of_prefix h hc] at hstop

theorem run_cut (kind : LexemeKind) (f : Char → Bool) (c : Char) {s u : List Char}
    (h : u <+: s.dropWhile f) :
    run kind f c (s.takeWhile f ++ u) = ⟨kind, c :: s.takeWhile f, u⟩ := by
  obtain ⟨htake, hdrop⟩ := takeWhile_cut h
  rw [run, htake, hdrop]

/-- A backslash that has nothing behind it has nothing behind it in a text that is cut off. -/
theorem no_escape_of_prefix {c : Char} {s u : List Char}
    (hnot : ∀ d s', c = '\\' → s = d :: s' → False) (h : u <+: s) :
    ∀ d u', c = '\\' → u = d :: u' → False := by
  rintro d u' hc rfl
  obtain ⟨w, rfl⟩ := h
  exact hnot d (u' ++ w) hc rfl

theorem quotedBody_cut {quote : Char} {spansLines : Bool} {s u : List Char}
    (h : u <+: (quotedBody quote spansLines s).2) :
    quotedBody quote spansLines ((quotedBody quote spansLines s).1 ++ u) =
      ((quotedBody quote spansLines s).1, u) := by
  fun_induction quotedBody quote spansLines s with
  | case1 =>
    obtain rfl := List.prefix_nil.mp h
    rfl
  | case2 c s body rest heq ih =>
    rw [heq] at ih
    simp only [List.cons_append, quotedBody, ih h]
  | case3 s hnot =>
    rw [List.singleton_append, quotedBody, if_pos rfl]
    exact no_escape_of_prefix hnot h
  | case4 c s hnot hquote hstop =>
    cases u with
    | nil => rfl
    | cons d u =>
      obtain ⟨rfl, hu⟩ := List.cons_prefix_cons.mp h
      rw [List.nil_append, quotedBody, if_neg hquote, if_pos hstop]
      exact no_escape_of_prefix hnot hu
  | case5 c s hnot hquote hplain body rest heq ih =>
    rw [heq] at ih
    rw [List.cons_append, quotedBody, if_neg hquote, if_neg hplain, ih h]
    exact fun d s' hc _ => hplain (.inl hc)

theorem blockCommentBody_cut {s u : List Char} (h : u <+: (blockCommentBody s).2) :
    blockCommentBody ((blockCommentBody s).1 ++ u) = ((blockCommentBody s).1, u) := by
  rcases blockCommentBody_cases s with ⟨body, rest, hbody, heq⟩ | ⟨hs, heq⟩
  · rw [heq, List.append_assoc]
    exact blockCommentBody_append_end hbody u
  · rw [heq] at h ⊢
    obtain rfl := List.prefix_nil.mp h
    rw [List.append_nil, heq]

theorem fraction_eq_nil_of_prefix {s u : List Char} (hs : fraction s = ([], s)) (h : u <+: s) :
    fraction u = ([], u) := by
  obtain ⟨w, rfl⟩ := h
  fun_cases fraction u with
  | case1 d u hd => simp [fraction, hd] at hs
  | case2 | case3 => rfl

theorem fraction_cut {s u : List Char} (h : u <+: (fraction s).2) :
    fraction ((fraction s).1 ++ u) = ((fraction s).1, u) := by
  fun_cases fraction s with
  | case1 d s hd =>
    simp only [fraction, hd, if_true] at h ⊢
    obtain ⟨htake, hdrop⟩ := takeWhile_cut h
    simp only [List.cons_append, hd, if_true, htake, hdrop]
  | case2 d s hd =>
    have hs : fraction ('.' :: d :: s) = ([], '.' :: d :: s) := by rw [fraction, if_neg hd]
    rw [hs] at h
    exact fraction_eq_nil_of_prefix hs h
  | case3 s hnot =>
    have hs : fraction s = ([], s) := by
      rw [fraction]
      exact hnot
    rw [hs] at h
    exact fraction_eq_nil_of_prefix hs h

theorem number_cut {c : Char} {s u : List Char} (h : u <+: (number c s).rest) :
    number c ((number c s).text.tail ++ u) = ⟨.token .number, (number c s).text, u⟩ := by
  -- what follows the digits starts with no digit, however much of it is cut off
  have hprefix : (fraction (s.dropWhile Text.isDigit)).1 ++ u <+: s.dropWhile Text.isDigit := by
    obtain ⟨w, hw⟩ := h
    refine ⟨w, ?_⟩
    rw [List.append_assoc, hw]
    exact fraction_append _
  obtain ⟨htake, hdrop⟩ := takeWhile_cut hprefix
  simp only [number, List.cons_append, List.tail_cons, List.append_assoc, htake, hdrop,
    fraction_cut h]

theorem slash_eq_unknown_of_prefix {s u : List Char} (hs : slash s = ⟨.token .unknown, ['/'], s⟩)
    (h : u <+: s) : slash u = ⟨.token .unknown, ['/'], u⟩ := by
  obtain ⟨w, rfl⟩ := h
  fun_cases slash u with
  | case1 u => simp [slash] at hs
  | case2 u => simp [slash, enclosed] at hs
  | case3 => rfl

theorem slash_cut {s u : List Char} (h : u <+: (slash s).rest) :
    slash ((slash s).text.tail ++ u) = ⟨(slash s).kind, (slash s).text, u⟩ := by
  fun_cases slash s with
  | case1 s =>
    obtain ⟨htake, hdrop⟩ := takeWhile_cut h
    simp only [slash, List.tail_cons, List.cons_append, htake, hdrop]
  | case2 s =>
    simp only [slash, enclosed, List.cons_append, List.nil_append, List.tail_cons] at h ⊢
    rw [blockCommentBody_cut h]
  | case3 s hline hblock =>
    have hs : slash s = ⟨.token .unknown, ['/'], s⟩ := by
      rw [slash]
      · exact hline
      · exact hblock
    rw [hs] at h
    exact slash_eq_unknown_of_prefix hs h

theorem enclosed_quotedBody_cut {kind : LexemeKind} {c : Char} {spansLines : Bool}
    {s u : List Char} (h : u <+: (quotedBody c spansLines s).2) :
    enclosed kind [c] (quotedBody c spansLines ((quotedBody c spansLines s).1 ++ u)) =
      ⟨kind, c :: (quotedBody c spansLines s).1, u⟩ := by
  rw [quotedBody_cut h]
  rfl

/-- What follows a lexeme may be cut off. -/
theorem read_cut {p : Profile} {c : Char} {s u : List Char} (h : u <+: (read p c s).rest) :
    read p c ((read p c s).text.tail ++ u) = ⟨(read p c s).kind, (read p c s).text, u⟩ := by
  -- the first character alone decides how a lexeme is read
  revert h
  by_cases hblank : Text.isBlank c
  · simp only [read, if_pos hblank]
    exact run_cut _ _ c
  by_cases hslash : c = '/'
  · simp only [read, if_neg hblank, if_pos hslash]
    exact slash_cut
  by_cases hquote : c = '"' ∨ c = '\''
  · simp only [read, if_neg hblank, if_neg hslash, if_pos hquote]
    exact enclosed_quotedBody_cut
  by_cases htemplate : c = '`'
  · simp only [read, if_neg hblank, if_neg hslash, if_neg hquote, if_pos htemplate]
    exact enclosed_quotedBody_cut
  by_cases hdigit : Text.isDigit c
  · simp only [read, if_neg hblank, if_neg hslash, if_neg hquote, if_neg htemplate, if_pos hdigit]
    exact number_cut
  by_cases hsymbol : c ∈ symbols
  · simp only [read, if_neg hblank, if_neg hslash, if_neg hquote, if_neg htemplate, if_neg hdigit,
      if_pos hsymbol]
    exact fun _ => rfl
  by_cases hstart : p.startsIdentifier c
  · simp only [read, if_neg hblank, if_neg hslash, if_neg hquote, if_neg htemplate, if_neg hdigit,
      if_neg hsymbol, if_pos hstart]
    exact run_cut _ _ c
  · simp only [read, if_neg hblank, if_neg hslash, if_neg hquote, if_neg htemplate, if_neg hdigit,
      if_neg hsymbol, if_neg hstart]
    exact fun _ => rfl

end Lexeme

/-! ## Tokens of lexemes -/

/-- The token that a lexeme at the given offset is, if it is one. -/
def Lexeme.token? (lexeme : Lexeme) (position : Nat) : Option Token :=
  match lexeme.kind with
  | .token kind => some ⟨kind, String.ofList lexeme.text, position⟩
  | _ => none

theorem Lexeme.token?_add (lexeme : Lexeme) (position n : Nat) :
    lexeme.token? (position + n) = (lexeme.token? position).map (Token.shift n) := by
  unfold token?
  split <;> rfl

/-- The tokens of a text are that of its first lexeme and those of the rest. -/
theorem tokensFrom_cons (p : Profile) (position : Nat) (c : Char) (s : List Char) :
    tokensFrom p position (c :: s) =
      ((Lexeme.read p c s).token? position).toList ++
        tokensFrom p (position + (Lexeme.read p c s).text.length) (Lexeme.read p c s).rest := by
  rw [tokensFrom.eq_def, Lexeme.token?]
  dsimp only
  cases (Lexeme.read p c s).kind <;> rfl

theorem tokensFrom_ne_nil (p : Profile) (position : Nat) (s : List Char) :
    tokensFrom p position s ≠ [] := by
  obtain ⟨ts, hts, -⟩ := exists_tokensFrom_eq p position s
  simp [hts]

/-! ## Where lexemes start -/

/-- The offsets at which the lexemes of a text start, if the text starts at the given one. -/
def lexemeStarts (p : Profile) (position : Nat) : List Char → List Nat
  | [] => []
  | c :: s =>
    position :: lexemeStarts p (position + (Lexeme.read p c s).text.length) (Lexeme.read p c s).rest
termination_by s => s.length
decreasing_by exact Lexeme.length_rest_lt p c s

theorem bounds_of_mem_lexemeStarts {p : Profile} {start offset : Nat} {s : List Char}
    (h : offset ∈ lexemeStarts p start s) : start ≤ offset ∧ offset < start + s.length := by
  fun_induction lexemeStarts p start s with
  | case1 => cases h
  | case2 start c s ih =>
    have hlength := congrArg List.length (Lexeme.text_append_rest p c s)
    rw [List.length_append] at hlength
    rcases List.mem_cons.mp h with rfl | h
    · simp
    · have hbounds := ih h
      omega

/-- A text that starts further on has its tokens further on. -/
theorem tokensFrom_add (p : Profile) (start n : Nat) (s : List Char) :
    tokensFrom p (start + n) s = (tokensFrom p start s).map (Token.shift n) := by
  fun_induction lexemeStarts p start s with
  | case1 start =>
    rw [tokensFrom_nil, tokensFrom_nil]
    rfl
  | case2 start c s ih =>
    rw [tokensFrom_cons, tokensFrom_cons, Lexeme.token?_add, Nat.add_right_comm, ih,
      List.map_append, Option.toList_map]

/-- If the text `s ++ t` is cut where a lexeme starts, its first lexeme lies in `s` and is read
there, too. -/
theorem read_of_append {p : Profile} {c : Char} {rest s t : List Char}
    (hst : c :: s ++ t = c :: rest)
    (hle : (Lexeme.read p c rest).text.length ≤ (c :: s).length) :
    ∃ s', (Lexeme.read p c rest).rest = s' ++ t ∧
      c :: s = (Lexeme.read p c rest).text ++ s' ∧
      Lexeme.read p c s =
        ⟨(Lexeme.read p c rest).kind, (Lexeme.read p c rest).text, s'⟩ := by
  have happend := Lexeme.text_append_rest p c rest
  have hne := Lexeme.text_ne_nil p c rest
  obtain ⟨s', hs'⟩ := List.prefix_of_prefix_length_le ⟨_, happend⟩ ⟨t, hst⟩ hle
  have hrest : (Lexeme.read p c rest).rest = s' ++ t := by
    rw [← hs', List.append_assoc, ← happend] at hst
    exact (List.append_cancel_left hst).symm
  have htail : (Lexeme.read p c rest).text.tail ++ s' = s := by
    rw [← List.tail_append_of_ne_nil hne, hs', List.tail_cons]
  have hread := Lexeme.read_cut ⟨t, hrest.symm⟩
  rw [htail] at hread
  exact ⟨s', hrest, hs'.symm, hread⟩

/-- The tokens of a text that is cut where a lexeme starts, or at its end. -/
theorem tokensFrom_append {p : Profile} {start : Nat} {s t : List Char}
    (h : start + s.length ∈ lexemeStarts p start (s ++ t) ∨ t = []) :
    tokensFrom p start (s ++ t) =
      (tokensFrom p start s).dropLast ++ tokensFrom p (start + s.length) t := by
  generalize hst : s ++ t = st at h ⊢
  fun_induction lexemeStarts p start st generalizing s with
  | case1 start =>
    obtain ⟨rfl, rfl⟩ := List.append_eq_nil_iff.mp hst
    simp [tokensFrom_nil]
  | case2 start c rest ih =>
    cases s with
    | nil =>
      rw [← hst, tokensFrom_nil]
      rfl
    | cons d s =>
      obtain ⟨rfl, -⟩ := List.cons.inj hst
      -- the first lexeme ends where the next one starts, at the latest at the cut
      have hmore : start + (d :: s).length ∈
          lexemeStarts p (start + (Lexeme.read p d rest).text.length)
            (Lexeme.read p d rest).rest ∨ t = [] :=
        h.imp_left fun hmem => (List.mem_cons.mp hmem).resolve_left (by simp)
      have hle : (Lexeme.read p d rest).text.length ≤ (d :: s).length := by
        rcases hmore with hmem | rfl
        · have hbounds := bounds_of_mem_lexemeStarts hmem
          omega
        · rw [← List.append_nil (d :: s), hst, ← Lexeme.text_append_rest p d rest,
            List.length_append]
          omega
      obtain ⟨s', hrest, hs, hread⟩ := read_of_append hst hle
      have hlength : start + (d :: s).length =
          start + (Lexeme.read p d rest).text.length + s'.length := by
        rw [hs, List.length_append, Nat.add_assoc]
      rw [hlength] at hmore ⊢
      rw [tokensFrom_cons p start d rest, tokensFrom_cons p start d s, hread,
        List.dropLast_append_of_ne_nil (tokensFrom_ne_nil _ _ _), List.append_assoc,
        ih hrest.symm hmore]
      rfl

/-- **Lexing restarts between lexemes.** If a source is cut at an offset at which a lexeme starts,
or at its end, then its tokens are those of the part before the cut, without the end token, and
those of the part after it, further on by the length of the part before it. -/
theorem tokenize_restarts (p : Profile) (source : String) (offset : Nat)
    (h : offset ∈ lexemeStarts p 0 source.toList ∨ offset = source.length) :
    tokenize p source =
      (tokenize p (String.ofList (source.toList.take offset))).dropLast ++
        (tokenize p (String.ofList (source.toList.drop offset))).map (Token.shift offset) := by
  have hle : offset ≤ source.toList.length := by
    rcases h with h | rfl
    · have hbounds := bounds_of_mem_lexemeStarts h
      omega
    · exact String.length_toList.ge
  have hlength : (source.toList.take offset).length = offset := List.length_take_of_le hle
  have hcut : 0 + (source.toList.take offset).length ∈
      lexemeStarts p 0 (source.toList.take offset ++ source.toList.drop offset) ∨
        source.toList.drop offset = [] := by
    rw [List.take_append_drop, hlength, Nat.zero_add]
    refine h.imp_right ?_
    rintro rfl
    exact List.drop_eq_nil_of_le String.length_toList.le
  have happend := tokensFrom_append hcut
  rw [List.take_append_drop, hlength, tokensFrom_add] at happend
  simp only [tokenize, String.toList_ofList]
  exact happend

/-- A cut before a point that would be part of the number if a digit followed. -/
theorem tokenize_restarts_number :
    2 ∈ lexemeStarts .plain 0 "12.x 'a".toList ∧
      tokenize .plain "12.x 'a" =
        (tokenize .plain "12").dropLast ++ (tokenize .plain ".x 'a").map (Token.shift 2) := by
  have hstart : 2 ∈ lexemeStarts .plain 0 "12.x 'a".toList := by decide +kernel
  refine ⟨hstart, (tokenize_restarts .plain "12.x 'a" 2 (.inl hstart)).trans ?_⟩
  rfl

end UiMarkup
