import DotLang.Proofs.Syntax.Conversions

/-!
# The caret under a token

The place of an error is counted character by character while tokens are read. The context of the
error takes its line from a text that is split into lines, which have lost the newlines and
carriage returns at their ends. The two agree: a token starts with none of these, so the line goes
on up to it at least, and the caret stands below its first character. Only where a text ends with
the end of a line there is nothing behind which the caret could stand.

* `exists_lines`: the lines before a place, and the start of its own line;
* `Cursor.exists_place`: every token stands at a place in its text;
* `Graph.exists_token`: the token that an error is about, among those of the text;
* `Graph.caret_under_token`: the context of an error.
-/

namespace DotLang

/-! ### Lines and places -/

section

variable {v : List Char}

/-- Characters without a newline are one line up to the next newline, whatever is behind it. -/
theorem splitLines_newline (h : '\n' ∉ v) :
    ∃ line, ∀ cs, splitLines (v ++ '\n' :: cs) = line :: splitLines cs := by
  induction v with
  | nil => exact ⟨[], fun cs => by rw [List.nil_append, splitLines_cons, if_pos rfl]⟩
  | cons c v ih =>
    obtain ⟨hc, hv⟩ := not_or.1 (mt List.mem_cons.2 h)
    obtain ⟨line, hline⟩ := ih hv
    -- Whether a carriage return goes with the newline does not depend on what is behind it.
    have head : ∀ cs, (v ++ '\n' :: cs).head? = (v ++ ['\n']).head? := by
      intro cs
      cases v with
      | nil => rfl
      | cons d v => rfl
    by_cases hend : c = '\r' ∧ (v ++ ['\n']).head? = some '\n'
    · refine ⟨line, fun cs => ?_⟩
      rw [List.cons_append, splitLines_cons, if_neg (Ne.symm hc), head, if_pos hend, hline]
    · refine ⟨c :: line, fun cs => ?_⟩
      rw [List.cons_append, splitLines_cons, if_neg (Ne.symm hc), head, if_neg hend, hline,
        consLine]

/-- The place behind some characters has as many lines before it as they have, and its own line
    starts with the last of them. It starts there if the last one is a newline. -/
theorem exists_lines (before : List Char) : ∃ lines v, '\n' ∉ v ∧
    Position.start.advanceAll before = ⟨lines.length + 1, v.length + 1⟩ ∧
    (v = [] ↔ before = [] ∨ before.getLast? = some '\n') ∧
    ∀ cs, splitLines (before ++ cs) = lines ++ splitLines (v ++ cs) := by
  induction before using List.reverseRecOn with
  | nil => exact ⟨[], [], nofun, rfl, by simp, fun _ => rfl⟩
  | append_singleton before c ih =>
    obtain ⟨lines, v, hv, hpos, -, hlines⟩ := ih
    rw [Position.advanceAll_append, hpos]
    by_cases hc : c = '\n'
    · subst hc
      obtain ⟨line, hline⟩ := splitLines_newline hv
      refine ⟨lines ++ [line], [], nofun, ?_, by simp, fun cs => ?_⟩
      · rw [List.length_append]
        rfl
      · rw [List.append_assoc, List.singleton_append, hlines, hline, List.append_assoc]
        rfl
    · refine ⟨lines, v ++ [c], ?_, ?_, by simp [hc], fun cs => ?_⟩
      · simpa [hv] using Ne.symm hc
      · rw [List.length_append, Position.advanceAll_cons, Position.advance, if_neg hc]
        rfl
      · rw [List.append_assoc, List.singleton_append, hlines, List.append_assoc]
        rfl

/-- A line goes on up to a character that is no end of a line, and with it. -/
theorem splitLines_append_cons (hv : '\n' ∉ v) {c : Char} (hc : c ≠ '\n') (hr : c ≠ '\r')
    (cs : List Char) : ∃ more later, splitLines (v ++ c :: cs) = (v ++ c :: more) :: later := by
  induction v with
  | nil =>
    rw [List.nil_append, splitLines_cons, if_neg hc, if_neg fun h => hr h.1]
    cases splitLines cs with
    | nil => exact ⟨[], [], rfl⟩
    | cons line later => exact ⟨line, later, rfl⟩
  | cons d v ih =>
    obtain ⟨hd, hv⟩ := not_or.1 (mt List.mem_cons.2 hv)
    obtain ⟨more, later, hline⟩ := ih hv
    have head : (v ++ c :: cs).head? ≠ some '\n' := by
      cases v with
      | nil => exact fun h => hc (Option.some.inj h)
      | cons x v => exact fun h => hv (Option.some.inj h ▸ List.mem_cons_self)
    refine ⟨more, later, ?_⟩
    rw [List.cons_append, splitLines_cons, if_neg (Ne.symm hd), if_neg fun h => head h.2, hline]
    rfl

/-- Characters without a newline are the last line, if there are any. -/
theorem splitLines_eq_singleton (hv : '\n' ∉ v) (hne : v ≠ []) : splitLines v = [v] := by
  induction v with
  | nil => exact absurd rfl hne
  | cons c v ih =>
    obtain ⟨hc, hv⟩ := not_or.1 (mt List.mem_cons.2 hv)
    cases v with
    | nil => rw [splitLines_cons, if_neg (Ne.symm hc), if_neg (by simp)]; rfl
    | cons d v =>
      have hd : d ≠ '\n' := fun h => hv (h ▸ List.mem_cons_self)
      rw [splitLines_cons, if_neg (Ne.symm hc), if_neg (by simp [hd]), ih hv nofun]
      rfl

end

/-! ### Tokens and places -/

/-- What is left behind trivia does not start with white space. -/
theorem Gap.skip_head (g : Gap) (p : Position) (cs : List Char) :
    ∀ c ∈ (g.skip p cs).rest.head?, isBlank c = false := by
  fun_induction Gap.skip g p cs with
  | case5 p c cs _ _ hblank => simpa using hblank
  | case9 g p =>
    intro c hc
    cases hc
  | case1 | case2 | case3 | case4 | case6 | case7 | case8 => assumption

/-- Every token of a text, its end too, stands at a place in it, and not at white space. -/
theorem Cursor.exists_place {c : Cursor} {t : Token} (h : t ∈ c.tokens.toList) :
    ∃ w d, c.Reaches w d ∧ d.token.1 = t ∧ (t.kind = .endOfInput ↔ d.rest = []) ∧
      ∀ x ∈ d.rest.head?, isBlank x = false := by
  have next : ∀ c : Cursor, ∃ w d, c.Reaches w d ∧ d.token.1 = c.next.1 ∧ c.next.1.pos = d.pos ∧
      (c.next.1.kind = .endOfInput ↔ d.rest = []) ∧ ∀ x ∈ d.rest.head?, isBlank x = false := by
    intro c
    obtain ⟨w, hw⟩ := c.skipTrivia_reaches
    obtain ⟨lexeme, rest, kind, value, -, htoken, hend, -⟩ :=
      Lexical.exists_token c.skipTrivia.pos c.skipTrivia.rest
    have token_eq : c.next.1 = ⟨kind, String.ofList value, c.skipTrivia.pos⟩ :=
      congrArg Prod.fst htoken
    refine ⟨w, c.skipTrivia, hw, rfl, ?_, ?_, Gap.clear.skip_head c.pos c.rest⟩
    · rw [token_eq]
    · rw [token_eq, hend]
  fun_induction tokens c with
  | case1 c hend =>
    obtain ⟨w, d, hw, htoken, hpos, hkind, hblank⟩ := next c
    obtain rfl : t = .endAt c.next.1.pos := by simpa [Tokens.toList] using h
    have rest_eq := hkind.1 hend
    refine ⟨w, d, hw, ?_, iff_of_true rfl rest_eq, hblank⟩
    rw [token, rest_eq, hpos]
  | case2 c hend later ih =>
    rcases List.mem_cons.1 h with rfl | h
    · obtain ⟨w, d, hw, htoken, -, hplace⟩ := next c
      exact ⟨w, d, hw, htoken, hplace⟩
    · obtain ⟨v, hv⟩ := c.next_reaches
      obtain ⟨w, d, hw, hplace⟩ := ih h
      exact ⟨v ++ w, d, hv.trans hw, hplace⟩

/-! ### The token that an error is about -/

/-- A fault is about a token: one that was not expected, the node that a port belongs to, or the
    text that is no value. -/
def Fault.IsAbout (t : Token) : Fault → Prop
  | illegalCharacter found => found = t
  | unexpected _ found => found = t
  | assignedPort => t.isId
  | badValue error => error.value = t.value

/-- An assignment among tokens has one of them as its text. -/
theorem exists_value_of_mem {ts : List Token} {entry : Entry} (h : entry ∈ assignmentsIn ts) :
    ∃ t ∈ ts, entry.text = t.value ∧ entry.pos = t.pos := by
  fun_induction assignmentsIn ts with
  | case1 k e v ts ih =>
    rcases List.mem_append.1 h with h | h
    · split at h
      · obtain rfl := List.mem_singleton.1 h
        exact ⟨v, by simp, rfl, rfl⟩
      · cases h
    · obtain ⟨t, ht, heq⟩ := ih h
      exact ⟨t, List.mem_cons_of_mem k ht, heq⟩
  | case2 => cases h

/-- The error of a text is at one of its tokens, which it is about. -/
theorem Graph.exists_token {text : String} {e : ParseError} (h : Graph.ofText text = .error e) :
    ∃ t ∈ (Tokens.ofText text).toList, e.fault.IsAbout t ∧ e.pos = t.pos := by
  obtain ⟨before, t, after, p, s, hstop, rfl⟩ := exists_stop h
  rw [hstop.toList]
  have unexpected : ∀ expected, (ParseError.atToken expected t).fault.IsAbout t := by
    intro expected
    rcases ParseError.fault_atToken expected t with hat | hat <;> rw [hat] <;> rfl
  rcases Progress.stops_of_step hstop.step with ⟨expected, he⟩ | ⟨r, rfl, hstops⟩
  · exact ⟨t, by simp, he ▸ unexpected expected, congrArg ParseError.pos he⟩
  have tokens := hstop.reads.nodeTokens
  have accounted := hstop.reads.accounted
  generalize s.error = e at hstops
  cases hstops with
  | unexpected expected => exact ⟨t, by simp, unexpected expected, rfl⟩
  | assignedPort hpart =>
    obtain ⟨start, more, port, rfl, hnode, -⟩ := exists_port hpart tokens
    refine ⟨_, by simp, ?_, rfl⟩
    obtain ⟨l, ns, hl, hid⟩ := nodeId_head hnode
    obtain ⟨rfl, -⟩ := List.cons.inj hl
    exact hid
  | badValue hpart hfirst =>
    obtain ⟨pre, entry, post, m, hentries, -, -, rfl⟩ := Reading.exists_of_firstError? hfirst
    obtain ⟨⟨done, hdone, -⟩, -⟩ := (accounted.of_list? (.inl hpart)).1
    have mem : entry ∈ assignmentsIn before := by
      rw [hdone, hentries]
      simp
    obtain ⟨v, hv, htext, hpos⟩ := exists_value_of_mem mem
    exact ⟨v, List.mem_append_left _ hv, htext, hpos⟩

/-! ### The context of a place -/

namespace Diagnostic

/-- A diagnostic is explained by its line of the source and a line below it: a tab below each tab
    before its column, a space below everything else there, and then a caret. -/
structure Marks (d : Diagnostic) (source : String) (row pad : List Char) : Prop where
  row_eq : (splitLines source.toList)[d.line - 1]? = some row
  context_eq : d.context source = String.ofList (row ++ '\n' :: (pad ++ ['^']))
  length_pad : pad.length + 1 = d.col
  pad_eq : ∀ i, i < pad.length → pad[i]? = some (if row[i]? = some '\t' then '\t' else ' ')

variable {d : Diagnostic} {source : String} {row pad v more : List Char}

theorem Marks.context_ne (h : d.Marks source row pad) : d.context source ≠ "" := by
  rw [h.context_eq]
  intro heq
  simpa using congrArg String.toList heq

theorem context_of_none (h : (splitLines source.toList)[d.line - 1]? = none) :
    d.context source = "" := by
  rw [context, h, ite_self]

/-- Nothing is cut short below a line that reaches up to the column. -/
theorem exists_marks (hd : 1 ≤ d.line) (hcol : d.col = v.length + 1)
    (hline : (splitLines source.toList)[d.line - 1]? = some (v ++ more)) :
    ∃ pad, d.Marks source (v ++ more) pad := by
  refine ⟨v.map fun c => if c = '\t' then '\t' else ' ', hline, ?_, ?_, fun i hi => ?_⟩
  · have below : padding d.col (v ++ more) = v.map fun c => if c = '\t' then '\t' else ' ' := by
      rw [padding, hcol, Nat.add_sub_cancel, List.take_left]
    rw [context, if_neg (Nat.one_le_iff_ne_zero.1 hd), hline]
    simp only [below, List.append_assoc, List.cons_append]
  · rw [List.length_map, hcol]
  · rw [List.length_map] at hi
    rw [List.getElem?_map, List.getElem?_append_left hi, List.getElem?_eq_getElem hi]
    simp

/-- The context of a place at which the text ends or goes on with something else than white space:
    there is none exactly if the text ends with its last line closed. -/
theorem context_of_place {before behind : List Char} (hsource : source.toList = before ++ behind)
    (hplace : Position.start.advanceAll before = ⟨d.line, d.col⟩)
    (hblank : ∀ c ∈ behind.head?, isBlank c = false) :
    (d.context source = "" ↔
      behind = [] ∧ (source = "" ∨ source.toList.getLast? = some '\n')) ∧
    (d.context source ≠ "" → ∃ row pad, d.Marks source row pad ∧
      row[d.col - 1]? = behind.head? ∧
      (behind = [] → row.length + 1 = d.col ∧ (splitLines source.toList).length = d.line)) := by
  obtain ⟨lines, v, hv, hpos, hstart, hlines⟩ := exists_lines before
  obtain ⟨hline, hcol⟩ := Position.mk.inj (hplace.symm.trans hpos)
  have at_line : ∀ later, splitLines source.toList = lines ++ later →
      (splitLines source.toList)[d.line - 1]? = later.head? := by
    intro later heq
    rw [heq, hline, Nat.add_sub_cancel, List.getElem?_append_right (Nat.le_refl _), Nat.sub_self,
      List.head?_eq_getElem?]
  have closed : behind = [] → (v = [] ↔ source = "" ∨ source.toList.getLast? = some '\n') := by
    rintro rfl
    rw [hsource, List.append_nil, hstart, ← String.toList_eq_nil_iff, hsource, List.append_nil]
  have marked : ∀ {row pad}, d.Marks source row pad → v ≠ [] ∨ behind ≠ [] →
      (d.context source = "" ↔
        behind = [] ∧ (source = "" ∨ source.toList.getLast? = some '\n')) := by
    intro row pad hmarks hne
    refine iff_of_false hmarks.context_ne fun h => ?_
    obtain ⟨hnil, hend⟩ := h
    exact hne.elim (fun hv => hv ((closed hnil).2 hend)) fun hne => hne hnil
  cases behind with
  | nil =>
    rw [List.append_nil] at hsource
    have split_eq : splitLines source.toList = lines ++ splitLines v := by
      simpa [hsource] using hlines []
    by_cases hnil : v = []
    · have none : d.context source = "" := by
        refine context_of_none ((at_line _ split_eq).trans ?_)
        rw [hnil, splitLines, List.head?_nil]
      exact ⟨iff_of_true none ⟨rfl, (closed rfl).1 hnil⟩, absurd none⟩
    · rw [splitLines_eq_singleton hv hnil] at split_eq
      have row_eq := at_line _ split_eq
      rw [List.head?_cons, ← List.append_nil v] at row_eq
      obtain ⟨pad, hmarks⟩ := exists_marks (by omega) hcol row_eq
      rw [List.append_nil] at hmarks
      refine ⟨marked hmarks (.inl hnil), fun _ => ⟨v, pad, hmarks, ?_, fun _ => ⟨hcol.symm, ?_⟩⟩⟩
      · rw [hcol, Nat.add_sub_cancel, List.getElem?_eq_none (Nat.le_refl _), List.head?_nil]
      · rw [split_eq, List.length_append, hline]
        rfl
  | cons c cs =>
    have hblank := hblank c rfl
    have hc : c ≠ '\n' := by
      rintro rfl
      exact absurd hblank (by decide)
    have hr : c ≠ '\r' := by
      rintro rfl
      exact absurd hblank (by decide)
    obtain ⟨more, later, hmore⟩ := splitLines_append_cons hv hc hr cs
    have row_eq := at_line _ (hsource ▸ hlines (c :: cs))
    rw [hmore, List.head?_cons] at row_eq
    obtain ⟨pad, hmarks⟩ := exists_marks (by omega) hcol row_eq
    have hne : c :: cs ≠ [] := List.cons_ne_nil c cs
    refine ⟨marked hmarks (.inr hne), fun _ => ⟨_, pad, hmarks, ?_, fun h => absurd h hne⟩⟩
    rw [hcol, Nat.add_sub_cancel, List.getElem?_append_right (Nat.le_refl _), Nat.sub_self]
    rfl

end Diagnostic

/-! ### The context of an error -/

/-- An error is at a line and a column of its text, both counted from one, where the token stands
    that it is about. Its context is this line, and a caret below the first character of the
    token, with a tab below each tab before it and a space below everything else. The caret of the
    end of the text is behind the last character of the last line. There is no context exactly if
    the error is at the end of a text that is empty or ends with a newline. -/
theorem Graph.caret_under_token {text : String} {e : ParseError}
    (h : Graph.ofText text = .error e) :
    1 ≤ e.diagnostic.line ∧ 1 ≤ e.diagnostic.col ∧
    ∃ t before behind, t ∈ (Tokens.ofText text).toList ∧ e.fault.IsAbout t ∧ e.pos = t.pos ∧
      text.toList = before ++ behind ∧ t.pos = Position.start.advanceAll before ∧
      (⟨t.pos, behind⟩ : Cursor).token.1 = t ∧
      (e.diagnostic.context text = "" ↔
        t.kind = .endOfInput ∧ (text = "" ∨ text.toList.getLast? = some '\n')) ∧
      (e.diagnostic.context text ≠ "" → ∃ row pad, e.diagnostic.Marks text row pad ∧
        (t.kind ≠ .endOfInput →
          ∃ c, behind.head? = some c ∧ row[e.diagnostic.col - 1]? = some c) ∧
        (t.kind = .endOfInput → row.length + 1 = e.diagnostic.col ∧
          (splitLines text.toList).length = e.diagnostic.line)) := by
  obtain ⟨t, ht, habout, hpos⟩ := exists_token h
  obtain ⟨before, d, hreach, htoken, hend, hblank⟩ := Cursor.exists_place ht
  have source : text.toList = before ++ d.rest := hreach.1
  have place : d.pos = Position.start.advanceAll before := hreach.2
  have pos_eq : t.pos = d.pos := by
    rw [← htoken, Cursor.token]
    split <;> rfl
  have diagnostic : Position.start.advanceAll before = ⟨e.diagnostic.line, e.diagnostic.col⟩ := by
    rw [← place, ← pos_eq, ← hpos]
    rfl
  obtain ⟨lines, v, -, counted, -⟩ := exists_lines before
  obtain ⟨hline, hcol⟩ := Position.mk.inj (diagnostic.symm.trans counted)
  obtain ⟨hempty, hmarks⟩ := Diagnostic.context_of_place source diagnostic hblank
  refine ⟨by omega, by omega, t, before, d.rest, ht, habout, hpos, source, pos_eq.trans place, ?_,
    by rwa [hend], fun hne => ?_⟩
  · rw [pos_eq]
    exact htoken
  · obtain ⟨row, pad, hmarks, hhead, hlast⟩ := hmarks hne
    refine ⟨row, pad, hmarks, fun hkind => ?_, fun hkind => hlast (hend.1 hkind)⟩
    obtain ⟨c, cs, hrest⟩ := List.exists_cons_of_ne_nil (mt hend.2 hkind)
    rw [hrest] at hhead ⊢
    exact ⟨c, rfl, hhead⟩

/-- Behind a tab, the caret is below the token that is no endpoint; the carriage return at the end
    of its line does not show. -/
theorem Graph.caret_under_semicolon :
    ∃ e t row pad, Graph.ofText "graph\x7b\n\ta--;\r\n\x7d" = .error e ∧
      e.fault.IsAbout t ∧ t.kind = .semicolon ∧ e.pos = ⟨2, 5⟩ ∧ row = "\ta--;".toList ∧
      e.diagnostic.Marks "graph\x7b\n\ta--;\r\n\x7d" row pad ∧ row[4]? = some ';' ∧
      e.diagnostic.context "graph\x7b\n\ta--;\r\n\x7d" = "\ta--;\n\t   ^" := by
  obtain ⟨e, he, hfault, hpos, hcontext⟩ := exists_error "graph\x7b\n\ta--;\r\n\x7d"
    (P := fun e => e.fault = .unexpected .endpoint ⟨.semicolon, ";", ⟨2, 5⟩⟩ ∧ e.pos = ⟨2, 5⟩ ∧
      e.diagnostic.context "graph\x7b\n\ta--;\r\n\x7d" = "\ta--;\n\t   ^") (by decide +kernel)
  obtain ⟨-, -, t, before, behind, -, habout, -, -, -, -, -, hmarks⟩ := caret_under_token he
  have found : (⟨.semicolon, ";", ⟨2, 5⟩⟩ : Token) = t := by
    rwa [hfault] at habout
  obtain ⟨row, pad, hmarks, -⟩ := hmarks (by rw [hcontext]; decide)
  have row_eq : (splitLines "graph\x7b\n\ta--;\r\n\x7d".toList)[1]? = some row := by
    simpa [ParseError.diagnostic, hpos] using hmarks.row_eq
  obtain rfl : "\ta--;".toList = row := by
    rw [show (splitLines "graph\x7b\n\ta--;\r\n\x7d".toList)[1]? = some "\ta--;".toList by decide]
      at row_eq
    exact Option.some.inj row_eq
  exact ⟨e, t, _, pad, he, habout, found ▸ rfl, hpos, rfl, hmarks, by decide, hcontext⟩

end DotLang
