import Mathlib.Data.List.Chain
import MarketFeed.Json.Spelling
import MarketFeed.Proofs.Json.Literal

namespace MarketFeed.Json

/-- Tokens whose end is seen only from what comes after them. -/
def Token.runsOn : Token → Bool
  | .null | .bool _ | .number _ => true
  | _ => false

/-- No two words or numbers stand next to each other, so that they cannot run together. -/
def Apart (ts : List Token) : Prop := ts.IsChain fun t u => t.runsOn = false ∨ u.runsOn = false

namespace Lexer

variable {l l' : Lexer} {done : List Token} {c : Char} {cs ds : List Char}

theorem foldlM_piece {p : Piece} (h : p.Spelled cs) (ps : List Piece) :
    cs.foldlM feed ⟨done, .text ps⟩ = some ⟨done, .text (p :: ps)⟩ := by
  cases h with
  | plain hc hq hb => simp [feed, hq, hb, Nat.not_lt.2 hc]
  | @short c e h =>
    have hu : e ≠ 'u' := by
      rintro rfl
      cases h
    simp [feed, hu, h]
  | @unit hex n hl hn =>
    obtain ⟨a, b, c, d, rfl⟩ : ∃ a b c d, hex = [a, b, c, d] := by
      match hex, hl with
      | [a, b, c, d], _ => exact ⟨a, b, c, d, rfl⟩
    simp only [hexNumber?, List.foldlM_cons, List.foldlM_nil, Option.bind_eq_bind,
      Option.bind_eq_some_iff, Option.map_eq_some_iff] at hn
    obtain ⟨_, ⟨i, hi, rfl⟩, _, ⟨j, hj, rfl⟩, _, ⟨k, hk, rfl⟩, _, ⟨m, hm, rfl⟩, he⟩ := hn
    cases he
    simp [feed, hi, hj, hk, hm]

theorem foldlM_text {t : Text} (h : t.Spelled cs) (ps : List Piece) :
    cs.foldlM feed ⟨done, .text ps⟩ = some ⟨done, .text (t.reverse ++ ps)⟩ := by
  induction h generalizing ps with
  | nil => rfl
  | cons hp ht ih =>
    rw [List.foldlM_append, foldlM_piece hp]
    simp [ih]

theorem foldlM_number (h : ∀ c ∈ cs, isNumberChar c = true) (written : List Char) :
    cs.foldlM feed ⟨done, .number written⟩ = some ⟨done, .number (cs.reverse ++ written)⟩ := by
  induction cs generalizing written with
  | nil => rfl
  | cons c cs ih =>
    obtain ⟨hc, hcs⟩ := List.forall_mem_cons.1 h
    simp [feed, hc, ih hcs]

/-- The tokens so far are known, whatever is still open, as soon as a character comes that belongs to
no word and no number. -/
structure Ends (l : Lexer) (done : List Token) : Prop where
  close : l.close = some done
  feed : ∀ c, isLetter c = false → isNumberChar c = false → l.feed c = begin done c

theorem ends_of_nothing (done : List Token) : Ends ⟨done, .nothing⟩ done :=
  ⟨rfl, fun _ _ _ => rfl⟩

theorem ends_of_word {letters : List Char} {t : Token} (h : word? letters.reverse = some t) :
    Ends ⟨done, .word letters⟩ (t :: done) := by
  have hc : close ⟨done, .word letters⟩ = some (t :: done) := by simp [close, h]
  exact ⟨hc, fun c hl _ => by simp [Lexer.feed, hl, hc]⟩

theorem ends_of_number {written : List Char} {n : Literal}
    (h : Literal.ofChars? written.reverse = some n) :
    Ends ⟨done, .number written⟩ (.number n :: done) := by
  have hc : close ⟨done, .number written⟩ = some (.number n :: done) := by simp [close, h]
  exact ⟨hc, fun c _ hn => by simp [Lexer.feed, hn, hc]⟩

theorem begin_of_number (h : c = '-' ∨ (Digit.ofChar? c).isSome = true) :
    begin done c = some ⟨done, .number [c]⟩ := by
  rcases h with rfl | h
  · rfl
  · obtain ⟨d, hd⟩ := Option.isSome_iff_exists.1 h
    have hf : ∀ d : Digit, isBlank d.toChar = false ∧ d.toChar ≠ '"' ∧ mark? d.toChar = none ∧
        isLetter d.toChar = false := by decide
    obtain ⟨hb, hq, hm, hl⟩ := hf d
    rw [Digit.toChar_of_ofChar? hd] at hb hq hm hl
    simp [begin, hb, hq, hm, hl, h]

theorem exists_foldlM_token (done : List Token) {t : Token} (h : t.Spelled cs) :
    ∃ l, cs.foldlM feed ⟨done, .nothing⟩ = some l ∧ Ends l (t :: done) ∧
      (t.runsOn = false → l = ⟨t :: done, .nothing⟩) := by
  cases h with
  | mark h =>
    refine ⟨⟨t :: done, .nothing⟩, ?_, ends_of_nothing _, fun _ => rfl⟩
    cases t with
    | openBrace | closeBrace | openBracket | closeBracket | colon | comma => rfl
    | null | bool | number | text => cases h
  | null => exact ⟨_, rfl, ends_of_word rfl, fun h => nomatch h⟩
  | bool b =>
    cases b with
    | true => exact ⟨_, rfl, ends_of_word rfl, fun h => nomatch h⟩
    | false => exact ⟨_, rfl, ends_of_word rfl, fun h => nomatch h⟩
  | @number n cs h =>
    obtain ⟨hc, c, rest, rfl, hb⟩ := Literal.chars_ofChars? h
    refine ⟨⟨done, .number (rest.reverse ++ [c])⟩, ?_, ends_of_number (by simpa using h),
      fun h => nomatch h⟩
    have hf : feed ⟨done, .nothing⟩ c = some ⟨done, .number [c]⟩ := begin_of_number hb
    rw [List.foldlM_cons, hf]
    exact foldlM_number (List.forall_mem_cons.1 hc).2 [c]
  | @text t cs h =>
    refine ⟨⟨.text t :: done, .nothing⟩, ?_, ends_of_nothing _, fun _ => rfl⟩
    have hf : feed ⟨done, .nothing⟩ '"' = some ⟨done, .text []⟩ := rfl
    rw [List.cons_append, List.foldlM_cons, hf]
    change (cs ++ ['"']).foldlM feed ⟨done, .text []⟩ = _
    rw [List.foldlM_append, foldlM_text h]
    simp [feed]

theorem isBlank_iff : isBlank c = true ↔ c = ' ' ∨ c = '\t' ∨ c = '\n' ∨ c = '\r' := by
  simp [isBlank, or_assoc]

theorem Ends.blank (h : Ends l done) (hb : isBlank c = true) :
    l.feed c = some ⟨done, .nothing⟩ := by
  rcases isBlank_iff.1 hb with rfl | rfl | rfl | rfl <;> exact h.feed _ rfl rfl

theorem exists_foldlM_blank (h : Ends l done) (hb : Blank cs) :
    ∃ l', cs.foldlM feed l = some l' ∧ (l' = l ∨ l' = ⟨done, .nothing⟩) := by
  induction cs generalizing l with
  | nil => exact ⟨l, rfl, .inl rfl⟩
  | cons c cs ih =>
    obtain ⟨hc, hcs⟩ := List.forall_mem_cons.1 hb
    obtain ⟨l', hl', he⟩ := ih (ends_of_nothing done) hcs
    refine ⟨l', ?_, .inr (he.elim id id)⟩
    rw [List.foldlM_cons, h.blank hc]
    exact hl'

theorem exists_head_of_spelled {t : Token} (h : t.Spelled cs) (hr : t.runsOn = false) :
    ∃ c rest, cs = c :: rest ∧ isLetter c = false ∧ isNumberChar c = false := by
  cases h with
  | null | bool | number => cases hr
  | mark h =>
    cases t with
    | openBrace | closeBrace | openBracket | closeBracket | colon | comma =>
      exact ⟨_, _, rfl, rfl, rfl⟩
    | null | bool | number | text => cases h
  | text h => exact ⟨_, _, rfl, rfl, rfl⟩

theorem Ends.foldlM_token {t : Token} (he : Ends l done) (ht : t.Spelled cs)
    (h : t.runsOn = true → l = ⟨done, .nothing⟩) :
    cs.foldlM Lexer.feed l = cs.foldlM Lexer.feed ⟨done, .nothing⟩ := by
  cases hr : t.runsOn with
  | true => rw [h hr]
  | false =>
    obtain ⟨c, rest, rfl, hl, hn⟩ := exists_head_of_spelled ht hr
    rw [List.foldlM_cons, List.foldlM_cons, he.feed c hl hn]
    rfl

theorem exists_foldlM_spelled {ts : List Token} (h : Spelled ts cs) (ha : Apart ts)
    (he : Ends l done) (hh : ∀ t ∈ ts.head?, t.runsOn = true → l = ⟨done, .nothing⟩) :
    ∃ l', cs.foldlM feed l = some l' ∧ l'.close = some (ts.reverse ++ done) := by
  induction h generalizing l done with
  | nil hb =>
    obtain ⟨l', hl', rfl | rfl⟩ := exists_foldlM_blank he hb
    · exact ⟨l', hl', he.close⟩
    · exact ⟨_, hl', rfl⟩
  | @cons t ts bs cs ds hb ht hs ih =>
    obtain ⟨l₁, hl₁, h₁⟩ := exists_foldlM_blank he hb
    have he₁ : Ends l₁ done := by
      rcases h₁ with rfl | rfl
      · exact he
      · exact ends_of_nothing done
    have hh₁ : t.runsOn = true → l₁ = ⟨done, .nothing⟩ := by
      rcases h₁ with rfl | rfl
      · exact hh t rfl
      · exact fun _ => rfl
    obtain ⟨l₂, hl₂, he₂, hn₂⟩ := exists_foldlM_token done ht
    have ha' := List.isChain_cons.1 ha
    obtain ⟨l', hl', hc⟩ := ih ha'.2 he₂ fun u hu hr =>
      hn₂ ((ha'.1 u hu).resolve_right (by simp [hr]))
    refine ⟨l', ?_, by rw [hc, List.reverse_cons, List.append_assoc]; rfl⟩
    rw [List.append_assoc, List.foldlM_append, hl₁]
    change (cs ++ ds).foldlM feed l₁ = _
    rw [List.foldlM_append, he₁.foldlM_token ht hh₁, hl₂]
    exact hl'

end Lexer

theorem tokens?_of_spelled {ts : List Token} {cs : List Char} (h : Spelled ts cs) (ha : Apart ts) :
    tokens? cs = some ts := by
  obtain ⟨l, hl, hc⟩ :=
    Lexer.exists_foldlM_spelled h ha (Lexer.ends_of_nothing []) fun _ _ _ => rfl
  have hl' : cs.foldlM Lexer.feed Lexer.start = some l := hl
  simp [tokens?, hl', hc]

theorem blank_nil : Blank [] := fun _ h => nomatch h

theorem blank_singleton {c : Char} (h : Lexer.isBlank c = true) : Blank [c] :=
  List.forall_mem_singleton.2 h

theorem Blank.append {cs ds : List Char} (h : Blank cs) (h' : Blank ds) : Blank (cs ++ ds) :=
  List.forall_mem_append.2 ⟨h, h'⟩

theorem Text.Spelled.concat {t : Text} {p : Piece} {cs ds : List Char} (h : t.Spelled cs)
    (hp : p.Spelled ds) : Text.Spelled (t ++ [p]) (cs ++ ds) := by
  induction h with
  | nil =>
    have h := Text.Spelled.cons hp .nil
    rwa [List.append_nil] at h
  | cons hq ht ih =>
    rw [List.append_assoc]
    exact .cons hq ih

theorem Spelled.concat {ts : List Token} {t : Token} {cs bs ds : List Char} (h : Spelled ts cs)
    (hb : Blank bs) (ht : t.Spelled ds) : Spelled (ts ++ [t]) (cs ++ (bs ++ ds)) := by
  induction h with
  | @nil bs' hb' =>
    have h := Spelled.cons (hb'.append hb) ht (.nil blank_nil)
    rwa [List.append_nil, List.append_assoc] at h
  | cons hb' ht' hs ih =>
    rw [List.append_assoc]
    exact .cons hb' ht' ih

theorem Spelled.blank {ts : List Token} {cs bs : List Char} (h : Spelled ts cs) (hb : Blank bs) :
    Spelled ts (cs ++ bs) := by
  induction h with
  | nil hb' => exact .nil (hb'.append hb)
  | cons hb' ht hs ih =>
    rw [List.append_assoc]
    exact .cons hb' ht ih

theorem hexNumber?_concat {hex : List Char} {c : Char} {n i : Nat} (h : hexNumber? hex = some n)
    (hc : Lexer.hexValue? c = some i) : hexNumber? (hex ++ [c]) = some (n * 16 + i) := by
  rw [hexNumber?] at h ⊢
  simp [List.foldlM_append, h, hc]

def Opened (ps : List Piece) (cs : List Char) : Prop :=
  ∃ bs ds, Blank bs ∧ Text.Spelled ps.reverse ds ∧ cs = bs ++ '"' :: ds

theorem Opened.push {ps : List Piece} {p : Piece} {cs ds : List Char} (h : Opened ps cs)
    (hp : p.Spelled ds) : Opened (p :: ps) (cs ++ ds) := by
  obtain ⟨bs, es, hb, ht, rfl⟩ := h
  refine ⟨bs, es ++ ds, hb, ?_, by rw [List.append_assoc, List.cons_append]⟩
  rw [List.reverse_cons]
  exact ht.concat hp

/-- What has been read of a token whose end has not been seen, with the blanks before it. -/
inductive Partial.Spelled : Partial → List Char → Prop where
  | nothing {bs : List Char} (hb : Blank bs) : Partial.Spelled .nothing bs
  | text {ps : List Piece} {cs : List Char} (h : Opened ps cs) : Partial.Spelled (.text ps) cs
  | escape {ps : List Piece} {cs : List Char} (h : Opened ps cs) :
      Partial.Spelled (.escape ps) (cs ++ ['\\'])
  | unit {ps : List Piece} {cs hex : List Char} {n : Nat} (h : Opened ps cs)
      (hn : hexNumber? hex = some n) :
      Partial.Spelled (.unit ps hex.length n) (cs ++ '\\' :: 'u' :: hex)
  | word {letters bs : List Char} (hb : Blank bs) :
      Partial.Spelled (.word letters) (bs ++ letters.reverse)
  | number {written bs : List Char} (hb : Blank bs) :
      Partial.Spelled (.number written) (bs ++ written.reverse)

namespace Lexer

variable {l l' : Lexer} {done : List Token} {c : Char} {cs bs : List Char}

/-- What a lexer has read: the tokens that are done, and then the one that it is at. -/
def HasRead (l : Lexer) (cs : List Char) : Prop :=
  ∃ ds es, cs = ds ++ es ∧ Spelled l.done.reverse ds ∧ l.reading.Spelled es

theorem token_of_word {letters : List Char} {t : Token} (h : word? letters = some t) :
    t.Spelled letters := by
  rw [word?.eq_def] at h
  split at h
  all_goals cases h
  · exact .null
  · exact .bool true
  · exact .bool false

theorem token_of_mark {t : Token} (h : mark? c = some t) : t.Spelled [c] := by
  unfold mark? at h
  split_ifs at h with h₁ h₂ h₃ h₄ h₅ h₆
  all_goals cases h
  all_goals subst c; exact .mark rfl

theorem HasRead.begin (hd : Spelled done.reverse cs) (hb : Blank bs)
    (h : begin done c = some l) : l.HasRead (cs ++ bs ++ [c]) := by
  unfold Lexer.begin at h
  split at h
  · rename_i hc
    cases h
    exact ⟨cs, bs ++ [c], List.append_assoc .., hd, .nothing (hb.append (blank_singleton hc))⟩
  split at h
  · rename_i hc
    cases h
    exact ⟨cs, bs ++ [c], List.append_assoc .., hd, .text ⟨bs, [], hb, .nil, by rw [hc]⟩⟩
  split at h
  · rename_i t ht
    cases h
    refine ⟨cs ++ (bs ++ [c]), [], by simp, ?_, .nothing blank_nil⟩
    rw [List.reverse_cons]
    exact hd.concat hb (token_of_mark ht)
  split at h
  · cases h
    exact ⟨cs, bs ++ [c], List.append_assoc .., hd, .word hb⟩
  split at h
  · cases h
    exact ⟨cs, bs ++ [c], List.append_assoc .., hd, .number hb⟩
  · cases h

theorem HasRead.close (h : l.HasRead cs) (hc : l.close = some done) : Spelled done.reverse cs := by
  obtain ⟨ds, es, rfl, hd, he⟩ := h
  obtain ⟨ts, reading⟩ := l
  cases he with
  | nothing hb =>
    cases hc
    exact hd.blank hb
  | word hb =>
    obtain ⟨t, ht, rfl⟩ := Option.map_eq_some_iff.1 hc
    rw [List.reverse_cons]
    exact hd.concat hb (token_of_word ht)
  | number hb =>
    obtain ⟨n, hn, rfl⟩ := Option.map_eq_some_iff.1 hc
    rw [List.reverse_cons]
    exact hd.concat hb (.number hn)
  | text | escape | unit => cases hc

theorem HasRead.close_begin (h : l.HasRead cs) (hf : l.close.bind (Lexer.begin · c) = some l') :
    l'.HasRead (cs ++ [c]) := by
  obtain ⟨done, hc, hb⟩ := Option.bind_eq_some_iff.1 hf
  have h' := HasRead.begin (h.close hc) blank_nil hb
  rwa [List.append_nil] at h'

section Strings

variable {ps : List Piece} {ds es : List Char}

theorem HasRead.feed_text (hd : Spelled done.reverse ds) (ho : Opened ps es)
    (hf : Lexer.feed ⟨done, .text ps⟩ c = some l) : l.HasRead (ds ++ es ++ [c]) := by
  unfold Lexer.feed at hf
  dsimp only at hf
  split at hf
  · rename_i hq
    cases hf
    obtain ⟨bs, fs, hb, ht, rfl⟩ := ho
    refine ⟨ds ++ (bs ++ ('"' :: fs ++ ['"'])), [], by simp [hq], ?_, .nothing blank_nil⟩
    rw [List.reverse_cons]
    exact hd.concat hb (.text ht)
  split at hf
  · rename_i hb
    cases hf
    exact ⟨ds, es ++ [c], List.append_assoc .., hd, by rw [hb]; exact .escape ho⟩
  split at hf
  · cases hf
  · rename_i hq hb hc
    cases hf
    exact ⟨ds, es ++ [c], List.append_assoc .., hd,
      .text (ho.push (.plain (Nat.not_lt.1 hc) hq hb))⟩

theorem HasRead.feed_escape (hd : Spelled done.reverse ds) (ho : Opened ps es)
    (hf : Lexer.feed ⟨done, .escape ps⟩ c = some l) : l.HasRead (ds ++ (es ++ ['\\']) ++ [c]) := by
  unfold Lexer.feed at hf
  dsimp only at hf
  split at hf
  · rename_i hu
    cases hf
    exact ⟨ds, es ++ ['\\', 'u'], by simp [hu], hd, .unit ho (rfl : hexNumber? [] = some 0)⟩
  · obtain ⟨e, he, rfl⟩ := Option.map_eq_some_iff.1 hf
    exact ⟨ds, es ++ ['\\', c], by simp, hd, .text (ho.push (.short he))⟩

theorem HasRead.feed_unit {hex : List Char} {n : Nat} (hd : Spelled done.reverse ds)
    (ho : Opened ps es) (hn : hexNumber? hex = some n)
    (hf : Lexer.feed ⟨done, .unit ps hex.length n⟩ c = some l) :
    l.HasRead (ds ++ (es ++ '\\' :: 'u' :: hex) ++ [c]) := by
  obtain ⟨i, hi, hf⟩ := Option.map_eq_some_iff.1 hf
  have hn' := hexNumber?_concat hn hi
  dsimp only at hf
  split at hf
  · rename_i hl
    cases hf
    exact ⟨ds, es ++ '\\' :: 'u' :: (hex ++ [c]), by simp, hd,
      .text (ho.push (.unit (by simp [hl]) hn'))⟩
  · cases hf
    refine ⟨ds, es ++ '\\' :: 'u' :: (hex ++ [c]), by simp, hd, ?_⟩
    have h := Partial.Spelled.unit ho hn'
    rwa [List.length_append] at h

end Strings

theorem HasRead.feed (h : l.HasRead cs) (hf : l.feed c = some l') : l'.HasRead (cs ++ [c]) := by
  have hl := h
  obtain ⟨ds, es, rfl, hd, he⟩ := h
  obtain ⟨done, reading⟩ := l
  cases he with
  | nothing hb => exact HasRead.begin hd hb hf
  | @word letters bs hb =>
    unfold Lexer.feed at hf
    dsimp only at hf
    split at hf
    · cases hf
      exact ⟨ds, bs ++ (c :: letters).reverse, by simp, hd, .word hb⟩
    · exact hl.close_begin hf
  | @number written bs hb =>
    unfold Lexer.feed at hf
    dsimp only at hf
    split at hf
    · cases hf
      exact ⟨ds, bs ++ (c :: written).reverse, by simp, hd, .number hb⟩
    · exact hl.close_begin hf
  | text ho => exact .feed_text hd ho hf
  | escape ho => exact .feed_escape hd ho hf
  | unit ho hn => exact .feed_unit hd ho hn hf

theorem HasRead.foldlM {ds : List Char} (h : l.HasRead cs) (hf : ds.foldlM Lexer.feed l = some l') :
    l'.HasRead (cs ++ ds) := by
  induction ds generalizing l cs with
  | nil =>
    cases hf
    rwa [List.append_nil]
  | cons c ds ih =>
    rw [List.foldlM_cons] at hf
    obtain ⟨l₁, h₁, hf⟩ := Option.bind_eq_some_iff.1 hf
    have h' := ih (h.feed h₁) hf
    rwa [List.append_assoc] at h'

end Lexer

theorem spelled_of_tokens? {ts : List Token} {cs : List Char} (h : tokens? cs = some ts) :
    Spelled ts cs := by
  obtain ⟨l, hl, h⟩ := Option.bind_eq_some_iff.1 h
  obtain ⟨done, hc, h⟩ := Option.bind_eq_some_iff.1 h
  cases h
  have h₀ : Lexer.start.HasRead [] :=
    ⟨[], [], rfl, .nil blank_nil, .nothing blank_nil⟩
  exact (h₀.foldlM hl).close hc

end MarketFeed.Json
