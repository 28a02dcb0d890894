import TreePattern.Proofs.Token.Tiling

/-! What a lexer gives out over a series of requests of both kinds, which goes on behind errors and
behind the end of the text. Main statement: `Cursor.transcript_spec` — the tokens lie in the text
one after another with nothing but white space between them, the end of the text is final, and an
error stands until a name is read at the very place that it reports. -/

namespace TreePattern

open Token (isBlank scan?)

namespace Cursor

theorem advance_append (offset : Nat) (l behind : List Char) :
    advance ⟨offset, l ++ behind⟩ l.length = ⟨offset + utf8Length l, behind⟩ := by
  simp [advance]

/-- The way from one position of a text to another, on which the given tokens stand and otherwise
nothing but white space. -/
inductive Passes : Cursor → List Token → Cursor → Prop where
  | blank {offset blanks rest} (hblank : ∀ c ∈ blanks, isBlank c = true) :
      Passes ⟨offset, blanks ++ rest⟩ [] ⟨offset + utf8Length blanks, rest⟩
  | token {offset blanks rest c} {t : Token} {ts : List Token}
      (hblank : ∀ c ∈ blanks, isBlank c = true) (hne : t.lexeme ≠ [])
      (hoffset : t.offset = offset + utf8Length blanks)
      (h : Passes ⟨t.offset + utf8Length t.lexeme, rest⟩ ts c) :
      Passes ⟨offset, blanks ++ (t.lexeme ++ rest)⟩ (t :: ts) c

namespace Passes

variable {c c' c'' : Cursor} {ts us : List Token}

theorem refl (c : Cursor) : c.Passes [] c :=
  @blank c.offset [] c.rest nofun

theorem skipBlank (c : Cursor) : c.Passes [] c.skipBlank := by
  obtain ⟨offset, rest⟩ := c
  have h := @blank offset (rest.takeWhile isBlank) (rest.dropWhile isBlank)
    fun _ => List.mem_takeWhile_imp
  have htake : rest.take (rest.takeWhile isBlank).length = rest.takeWhile isBlank :=
    (List.prefix_iff_eq_take.mp (List.takeWhile_prefix isBlank)).symm
  have hskip : Cursor.skipBlank ⟨offset, rest⟩ =
      ⟨offset + utf8Length (rest.takeWhile isBlank), rest.dropWhile isBlank⟩ := by
    rw [← rest_skipBlank ⟨offset, rest⟩, Cursor.skipBlank, advance, htake]
  rwa [List.takeWhile_append_dropWhile, ← hskip] at h

theorem of_token {k : Token.Kind} {l behind : List Char} (hne : l ≠ []) (h : c.rest = l ++ behind) :
    c.Passes [(c.token k l).1] (c.token k l).2 := by
  obtain ⟨offset, rest⟩ := c
  obtain rfl : rest = l ++ behind := h
  rw [Cursor.token, advance_append]
  exact @token offset [] behind _ ⟨k, l, offset⟩ [] (List.forall_mem_nil _) hne rfl (.refl _)

theorem trans (h : c.Passes ts c') (h' : c'.Passes us c'') : c.Passes (ts ++ us) c'' := by
  induction h with
  | @blank offset blanks rest hblank =>
      generalize hd : (⟨offset + utf8Length blanks, rest⟩ : Cursor) = d at h'
      cases h' with
      | blank hblank' =>
          cases hd
          rw [← List.append_assoc, Nat.add_assoc, ← utf8Length_append]
          exact .blank (List.forall_mem_append.mpr ⟨hblank, hblank'⟩)
      | token hblank' hne hoffset h =>
          cases hd
          rw [Nat.add_assoc, ← utf8Length_append] at hoffset
          rw [← List.append_assoc]
          exact .token (List.forall_mem_append.mpr ⟨hblank, hblank'⟩) hne hoffset h
  | token hblank hne hoffset _ ih => exact .token hblank hne hoffset (ih h')

/-- The tokens on the way are pieces of the text, each at its offset. -/
theorem slice (h : c.Passes ts c') : ∀ t ∈ ts, t.lexeme ≠ [] ∧ ∃ front behind,
    c.rest = front ++ (t.lexeme ++ behind) ∧ t.offset = c.offset + utf8Length front := by
  induction h with
  | blank => nofun
  | @token offset blanks rest c t ts hblank hne hoffset _ ih =>
      refine List.forall_mem_cons.mpr ⟨⟨hne, blanks, rest, rfl, hoffset⟩, fun u hu => ?_⟩
      obtain ⟨hne', front, behind, heq, hoffset'⟩ := ih u hu
      obtain rfl : rest = front ++ (u.lexeme ++ behind) := heq
      refine ⟨hne', blanks ++ (t.lexeme ++ front), behind, by simp, ?_⟩
      rw [utf8Length_append, utf8Length_append]
      dsimp only at hoffset' ⊢
      omega

/-- Nothing is left out on the way. -/
theorem offset_add (h : c.Passes ts c') :
    c'.offset + utf8Length c'.rest = c.offset + utf8Length c.rest := by
  induction h with
  | blank => rw [utf8Length_append, Nat.add_assoc]
  | token _ _ hoffset _ ih =>
      rw [ih, utf8Length_append, utf8Length_append]
      dsimp only
      omega

end Passes

theorem utf8Length_eq (cs : List Char) : utf8Length cs = (String.ofList cs).utf8ByteSize := by
  induction cs with
  | nil => rfl
  | cons c cs ih =>
      rw [String.ofList_cons, String.utf8ByteSize_append, ← ih, String.utf8ByteSize_singleton,
        ← List.singleton_append, utf8Length_append]
      simp [utf8Length]

/-! ## One request -/

/-- The answer to a request without the position behind the token. -/
def reply (c : Cursor) (r : Request) : Except StrayCharacter (Option Token) :=
  (c.answer r).map (·.map (·.1))

/-- The position behind a request: that behind the token or, if there is none, behind the white
space. -/
def behind (c : Cursor) (r : Request) : Cursor :=
  match c.answer r with
  | .ok (some (_, c')) => c'
  | _ => c.skipBlank

theorem nextName_skipBlank (c : Cursor) : c.skipBlank.nextName = c.nextName := by
  rw [nextName, nextName, skipBlank_skipBlank]

theorem answer_skipBlank (c : Cursor) (r : Request) : c.skipBlank.answer r = c.answer r := by
  cases r with
  | token => rw [answer, answer, next, next, skipBlank_skipBlank]
  | name => rw [answer, answer, nextName_skipBlank]

/-- Everything that a request can do. -/
theorem reply_cases (c : Cursor) (r : Request) :
    (∃ k l, scan? r c.skipBlank.rest = some (k, l) ∧
      c.reply r = .ok (some (c.skipBlank.token k l).1) ∧
      c.behind r = (c.skipBlank.token k l).2) ∨
    (scan? r c.skipBlank.rest = none ∧ c.behind r = c.skipBlank ∧
      c.reply r = match c.skipBlank.rest with
        | [] => .ok none
        | d :: _ => .error ⟨d, c.skipBlank.offset⟩) := by
  have hnext (c : Cursor) : c.next = match Token.lexeme? c.skipBlank.rest, c.skipBlank.rest with
      | some (k, l), _ => .ok (some (c.skipBlank.token k l))
      | none, [] => .ok none
      | none, d :: _ => .error ⟨d, c.skipBlank.offset⟩ := by
    rw [next]
    cases hrest : c.skipBlank.rest with
    | nil => rfl
    | cons d ds => cases Token.lexeme? (d :: ds) <;> rfl
  have hanswer : c.answer r = match scan? r c.skipBlank.rest, c.skipBlank.rest with
      | some (k, l), _ => .ok (some (c.skipBlank.token k l))
      | none, [] => .ok none
      | none, d :: _ => .error ⟨d, c.skipBlank.offset⟩ := by
    cases r with
    | token => exact hnext c
    | name =>
        rw [answer, nextName, scan?]
        cases Token.methodName? c.skipBlank.rest with
        | some l => rfl
        | none => rw [hnext, skipBlank_skipBlank]
  cases hscan : scan? r c.skipBlank.rest with
  | some found =>
      obtain ⟨k, l⟩ := found
      rw [hscan] at hanswer
      refine .inl ⟨k, l, rfl, ?_, ?_⟩
      · rw [reply, hanswer]
        rfl
      · rw [behind, hanswer]
  | none =>
      rw [hscan] at hanswer
      refine .inr ⟨rfl, ?_, ?_⟩
      · rw [behind, hanswer]
        cases c.skipBlank.rest <;> rfl
      · rw [reply, hanswer]
        cases c.skipBlank.rest <;> rfl

theorem reply_eq_none {c : Cursor} {r : Request} (h : c.reply r = .ok none) :
    c.skipBlank.rest = [] ∧ c.behind r = c.skipBlank := by
  rcases c.reply_cases r with ⟨k, l, _, hreply, _⟩ | ⟨_, hbehind, hreply⟩
  · rw [hreply] at h
    cases h
  · rw [hreply] at h
    cases hrest : c.skipBlank.rest with
    | nil => exact ⟨rfl, hbehind⟩
    | cons d ds =>
        rw [hrest] at h
        cases h

/-- Where no name is found, regular scanning has been tried as well. -/
theorem lexeme?_of_scan?_none {r : Request} {cs : List Char} (h : scan? r cs = none) :
    Token.lexeme? cs = none := by
  cases r with
  | token => exact h
  | name =>
      cases hname : Token.methodName? cs with
      | some l => simp [scan?, hname] at h
      | none => simpa [scan?, hname] using h

/-- An error reports the character behind the white space, which begins no token, and stops at
it. -/
theorem reply_eq_error {c : Cursor} {r : Request} {e : StrayCharacter}
    (h : c.reply r = .error e) : isBlank e.character = false ∧
      ∃ ds, c.skipBlank = ⟨e.offset, e.character :: ds⟩ ∧
        Token.lexeme? (e.character :: ds) = none ∧ c.behind r = c.skipBlank := by
  rcases c.reply_cases r with ⟨k, l, _, hreply, _⟩ | ⟨hscan, hbehind, hreply⟩
  · rw [hreply] at h
    cases h
  · rw [hreply] at h
    cases hrest : c.skipBlank.rest with
    | nil =>
        rw [hrest] at h
        cases h
    | cons d ds =>
        rw [hrest] at h hscan
        obtain rfl : ⟨d, c.skipBlank.offset⟩ = e := Except.error.inj h
        have hblank : isBlank d = false := by
          have hhead := List.head?_dropWhile_not isBlank c.rest
          rwa [← rest_skipBlank, hrest] at hhead
        exact ⟨hblank, ds, by rw [← hrest], lexeme?_of_scan?_none hscan, hbehind⟩

theorem answers_skipBlank (c : Cursor) (rs : List Request) :
    c.skipBlank.answers rs = c.answers rs := by
  induction rs with
  | nil => rfl
  | cons r rs ih =>
      rw [answers, answers, answer_skipBlank, ih]

theorem answers_cons (c : Cursor) (r : Request) (rs : List Request) :
    c.answers (r :: rs) = c.reply r :: (c.behind r).answers rs := by
  rw [answers, reply, behind]
  match c.answer r with
  | .ok (some _) => rfl
  | .ok none | .error _ => rw [answers_skipBlank]; rfl

/-! ## Series of requests -/

/-- The requests of a series, each with its answer. -/
def transcript (c : Cursor) (rs : List Request) :
    List (Request × Except StrayCharacter (Option Token)) :=
  rs.zip (c.answers rs)

/-- The tokens among the answers. -/
def tokensOf (answered : List (Request × Except StrayCharacter (Option Token))) : List Token :=
  answered.filterMap fun a => a.2.toOption.join

theorem transcript_cons (c : Cursor) (r : Request) (rs : List Request) :
    c.transcript (r :: rs) = (r, c.reply r) :: (c.behind r).transcript rs := by
  rw [transcript, answers_cons]
  rfl

theorem transcript_append (c : Cursor) (rs rs' : List Request) :
    c.transcript (rs ++ rs') = c.transcript rs ++ (rs.foldl behind c).transcript rs' := by
  induction rs generalizing c with
  | nil => rfl
  | cons r rs ih =>
      rw [List.cons_append, transcript_cons, transcript_cons, ih, List.foldl_cons, List.cons_append]

theorem map_fst_transcript (c : Cursor) (rs : List Request) :
    (c.transcript rs).map (·.1) = rs := by
  induction rs generalizing c with
  | nil => rfl
  | cons r rs ih => rw [transcript_cons, List.map_cons, ih]

/-- An answer in a transcript is given where the requests before it have led to. -/
theorem transcript_eq_append {c : Cursor} {rs : List Request} {r : Request}
    {a : Except StrayCharacter (Option Token)}
    {before later : List (Request × Except StrayCharacter (Option Token))}
    (h : c.transcript rs = before ++ (r, a) :: later) : ∃ rs₁ rs₂, before = c.transcript rs₁ ∧
      a = (rs₁.foldl behind c).reply r ∧
      later = ((rs₁.foldl behind c).behind r).transcript rs₂ := by
  have hrs : rs = before.map (·.1) ++ r :: later.map (·.1) := by
    rw [← map_fst_transcript c rs, h, List.map_append, List.map_cons]
  rw [hrs, transcript_append, transcript_cons] at h
  have hlength : (c.transcript (before.map (·.1))).length = before.length := by
    rw [← List.length_map (f := (·.1)), map_fst_transcript, List.length_map]
  obtain ⟨hbefore, htail⟩ := List.append_inj h hlength
  obtain ⟨hhead, hlater⟩ := List.cons.inj htail
  exact ⟨_, _, hbefore.symm, (Prod.mk.inj hhead).2.symm, hlater.symm⟩

/-- What one request passes. -/
theorem passes_behind (c : Cursor) (r : Request) :
    c.Passes (tokensOf [(r, c.reply r)]) (c.behind r) := by
  rcases c.reply_cases r with ⟨k, l, hscan, hreply, hbehind⟩ | ⟨_, hbehind, hreply⟩
  · have hbegins := Token.begins_scan hscan
    obtain ⟨rest, hrest⟩ := hbegins.isPrefix
    rw [hreply, hbehind]
    exact (Passes.skipBlank c).trans (.of_token hbegins.ne_nil hrest.symm)
  · have hnone : tokensOf [(r, c.reply r)] = [] := by
      rw [hreply]
      cases c.skipBlank.rest <;> rfl
    rw [hnone, hbehind]
    exact .skipBlank c

/-- What a series of requests passes, by induction on the requests. -/
theorem passes_transcript (c : Cursor) (rs : List Request) :
    c.Passes (tokensOf (c.transcript rs)) (rs.foldl behind c) := by
  induction rs generalizing c with
  | nil => exact .refl c
  | cons r rs ih =>
      have hcons : tokensOf (c.transcript (r :: rs)) =
          tokensOf [(r, c.reply r)] ++ tokensOf ((c.behind r).transcript rs) := by
        rw [transcript_cons, tokensOf, ← List.singleton_append, List.filterMap_append]
        rfl
      rw [hcons]
      exact (passes_behind c r).trans (ih _)

theorem passes_skipBlank (c : Cursor) (rs : List Request) :
    c.Passes (tokensOf (c.transcript rs)) (rs.foldl behind c).skipBlank := by
  have hpasses := (passes_transcript c rs).trans (Passes.skipBlank _)
  rwa [List.append_nil] at hpasses

/-! ## Behind an error and behind the end -/

/-- Once the text has ended, every answer says so. -/
theorem transcript_of_ended {c : Cursor} (h : c.skipBlank.rest = []) (rs : List Request) :
    ∀ a ∈ c.transcript rs, a.2 = .ok none := by
  induction rs generalizing c with
  | nil => nofun
  | cons r rs ih =>
      have hscan (r : Request) : scan? r [] = none := by cases r <;> rfl
      rcases c.reply_cases r with ⟨k, l, hfound, _⟩ | ⟨_, hbehind, hreply⟩
      · rw [h, hscan] at hfound
        cases hfound
      · rw [h] at hreply
        rw [transcript_cons, hbehind]
        refine List.forall_mem_cons.mpr ⟨hreply, ih ?_⟩
        rw [skipBlank_skipBlank, h]

/-- A character that begins no token in regular scanning is reported again and again, unless it
begins a name. -/
theorem reply_of_stuck {c : Cursor} {d : Char} {ds : List Char} (hrest : c.skipBlank.rest = d :: ds)
    (hstuck : Token.lexeme? (d :: ds) = none) (r : Request) :
    (c.reply r = .error ⟨d, c.skipBlank.offset⟩ ∧ c.behind r = c.skipBlank) ∨
      r = .name ∧ ∃ t, c.reply r = .ok (some t) ∧ t.kind = .methodName ∧
        t.offset = c.skipBlank.offset := by
  rcases c.reply_cases r with ⟨k, l, hfound, hreply, _⟩ | ⟨_, hbehind, hreply⟩
  · rw [hrest] at hfound
    cases r with
    | token =>
        rw [scan?, hstuck] at hfound
        cases hfound
    | name =>
        refine .inr ⟨rfl, _, hreply, ?_, rfl⟩
        cases hname : Token.methodName? (d :: ds) with
        | some name =>
            simp only [scan?, hname, Option.some.injEq, Prod.mk.injEq] at hfound
            exact hfound.1.symm
        | none =>
            simp only [scan?, hname, hstuck] at hfound
            cases hfound
  · rw [hrest] at hreply
    exact .inl ⟨hreply, hbehind⟩

/-- The report of such a character is the only answer until a name is read there, by induction on
the requests. -/
theorem stuck_until_name {c : Cursor} {d : Char} {ds : List Char}
    (hrest : c.skipBlank.rest = d :: ds) (hstuck : Token.lexeme? (d :: ds) = none)
    {rs : List Request} {middle more : List (Request × Except StrayCharacter (Option Token))}
    {r : Request} {a : Except StrayCharacter (Option Token)}
    (h : c.transcript rs = middle ++ (r, a) :: more) (hmiddle : tokensOf middle = []) :
    a = .error ⟨d, c.skipBlank.offset⟩ ∨
      r = .name ∧ ∃ t, a = .ok (some t) ∧ t.kind = .methodName ∧ t.offset = c.skipBlank.offset := by
  induction rs generalizing c middle with
  | nil => cases middle <;> cases h
  | cons s rs ih =>
      rw [transcript_cons] at h
      cases middle with
      | nil =>
          obtain ⟨hhead, -⟩ := List.cons.inj h
          obtain ⟨rfl, rfl⟩ := Prod.mk.inj hhead
          exact (reply_of_stuck hrest hstuck s).imp And.left id
      | cons m middle =>
          obtain ⟨rfl, htail⟩ := List.cons.inj h
          rcases reply_of_stuck hrest hstuck s with ⟨hreply, hbehind⟩ | ⟨_, t, hreply, _⟩
          · rw [hbehind] at htail
            have hmiddle' : tokensOf middle = [] := by
              rwa [hreply] at hmiddle
            have hagain := ih (by rwa [skipBlank_skipBlank]) htail hmiddle'
            rwa [skipBlank_skipBlank] at hagain
          · rw [hreply] at hmiddle
            cases hmiddle

/-- What a lexer may answer to a series of requests for the tokens of a text. -/
structure TranscriptSpec (text : String) (rs : List Request)
    (answered : List (Request × Except StrayCharacter (Option Token))) : Prop where
  /-- Every request gets one answer. -/
  requests : answered.map (·.1) = rs
  /-- The tokens stand one after another, with nothing but white space around them. -/
  passes : ∃ c, (start text.toList).Passes (tokensOf answered) c
  /-- Each of them is a piece of the text and begins between two characters. -/
  slice : ∀ t ∈ tokensOf answered, t.lexeme ≠ [] ∧ ∃ front behind : String,
    text = front ++ .ofList t.lexeme ++ behind ∧ t.offset = front.utf8ByteSize
  /-- At the end nothing but white space is left, and it stays the end. -/
  ending : ∀ before r later, answered = before ++ (r, .ok none) :: later →
    (start text.toList).Passes (tokensOf before) ⟨text.utf8ByteSize, []⟩ ∧
      ∀ a ∈ later, a.2 = .ok none
  /-- An error takes nothing but white space. It reports the character behind that, where the
  requests after it go on, and nothing else is answered until a name is read there. -/
  failing : ∀ before r e later, answered = before ++ (r, .error e) :: later →
    isBlank e.character = false ∧
      (∃ behind, (start text.toList).Passes (tokensOf before) ⟨e.offset, e.character :: behind⟩ ∧
        later = transcript ⟨e.offset, e.character :: behind⟩ (later.map (·.1))) ∧
      ∀ middle s a more, later = middle ++ (s, a) :: more → tokensOf middle = [] →
        a = .error e ∨
          s = .name ∧ ∃ t, a = .ok (some t) ∧ t.kind = .methodName ∧ t.offset = e.offset

/-- A lexer leaves out nothing, reads nothing twice and goes on behind an error where it stood. -/
theorem transcript_spec (text : String) (rs : List Request) :
    TranscriptSpec text rs ((start text.toList).transcript rs) where
  requests := map_fst_transcript _ rs
  passes := ⟨_, passes_transcript _ rs⟩
  slice t ht := by
    obtain ⟨hne, front, behind, htext, hoffset⟩ := (passes_transcript _ rs).slice t ht
    refine ⟨hne, .ofList front, .ofList behind, ?_, ?_⟩
    · rw [← String.ofList_append, ← String.ofList_append, List.append_assoc, ← htext]
      exact String.ofList_toList.symm
    · rw [hoffset, utf8Length_eq]
      exact Nat.zero_add _
  ending before r later h := by
    obtain ⟨rs₁, rs₂, rfl, hreply, rfl⟩ := transcript_eq_append h
    obtain ⟨hrest, hbehind⟩ := reply_eq_none hreply.symm
    have hpasses := passes_skipBlank (start text.toList) rs₁
    have hoffset := hpasses.offset_add
    rw [hrest, utf8Length_eq, utf8Length_eq] at hoffset
    have hend : (rs₁.foldl behind (start text.toList)).skipBlank.offset = text.utf8ByteSize := by
      simpa [start] using hoffset
    rw [← hend, ← hrest, hbehind]
    exact ⟨hpasses, transcript_of_ended (by rw [skipBlank_skipBlank, hrest]) rs₂⟩
  failing before r e later h := by
    obtain ⟨rs₁, rs₂, rfl, hreply, rfl⟩ := transcript_eq_append h
    obtain ⟨hblank, ds, hcursor, hstuck, hbehind⟩ := reply_eq_error hreply.symm
    have hskip := skipBlank_skipBlank (rs₁.foldl behind (start text.toList))
    have hpasses := passes_skipBlank (start text.toList) rs₁
    rw [hcursor] at hskip hpasses
    rw [hbehind, hcursor]
    refine ⟨hblank, ⟨ds, hpasses, ?_⟩, fun middle s a more hlater hmiddle => ?_⟩
    · rw [map_fst_transcript]
    · have hagain := stuck_until_name (by rw [hskip]) hstuck hlater hmiddle
      rwa [hskip] at hagain

end Cursor

end TreePattern
