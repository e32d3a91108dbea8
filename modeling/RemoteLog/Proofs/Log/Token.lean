import RemoteLog.Log.ApplicationId

/-! # Application ids as tokens of a line

An application id is the word `application_`, a run of digits, and any number of further runs with an
underscore before each. The search takes the longest one where the word and a digit stand, and goes on
behind it. Nothing is missed by that: within an id the word cannot begin again.

* **`ApplicationId.IsRun`**, **`ApplicationId.IsTail`**, **`ApplicationId.IsToken`** — the grammar.
* **`ApplicationId.StartsAt line i`** — the word and a digit stand at a position;
  **`ApplicationId.TokenAt line i id`** — the longest id there.
* **`ApplicationId.not_startsAt_within`** — no id starts within another one.
* **`ApplicationId.match?_eq_some`**, **`ApplicationId.match?_eq_none`** — the match at the front.
* **`ApplicationId.TokensOf line tokens`** — the ids of a line with their places;
  **`ApplicationId.find_eq_tokens`** — the search finds just these. -/

namespace RemoteLog.ApplicationId

open Text

/-! ## The grammar -/

/-- **A run of digits,** at least one. -/
def IsRun (run : List Char) : Prop := run ≠ [] ∧ ∀ c ∈ run, isDigit c = true

/-- **Further runs of digits,** each with its underscore. -/
inductive IsTail : List Char → Prop
  | nil : IsTail []
  | run {run tail : List Char} (hrun : IsRun run) (htail : IsTail tail) :
      IsTail ('_' :: (run ++ tail))

/-- **An application id:** the word, a run of digits, and further runs. -/
def IsToken (id : List Char) : Prop :=
  ∃ run tail, IsRun run ∧ IsTail tail ∧ id = word ++ (run ++ tail)

theorem not_isDigit_underscore : isDigit '_' = false := by decide

/-- Further runs are made of digits and underscores. -/
theorem IsTail.digit_or_underscore {tail : List Char} (h : IsTail tail) :
    ∀ c ∈ tail, isDigit c = true ∨ c = '_' := by
  induction h with
  | nil => simp
  | run hrun _ ih =>
    intro c hc
    rcases List.mem_cons.mp hc with rfl | hc
    · exact .inr rfl
    · exact (List.mem_append.mp hc).elim (fun hc => .inl (hrun.2 c hc)) (ih c)

/-- The first character of the word stands nowhere behind the word. -/
theorem notMem_runs {run tail : List Char} (hrun : IsRun run) (htail : IsTail tail) :
    'a' ∉ run ++ tail := by
  intro h
  rcases List.mem_append.mp h with h | h
  · exact absurd (hrun.2 _ h) (by decide)
  · exact (htail.digit_or_underscore _ h).elim (by decide) (by decide)

/-- **How a run and a tail end in a text of digits and others:** within the digits, without a tail, or
just behind the digits. -/
theorem run_tail_prefix {run tail digits rest : List Char} (hrun : IsRun run) (htail : IsTail tail)
    (hdigits : ∀ c ∈ digits, isDigit c = true) (hrest : ∀ c ∈ rest.head?, isDigit c = false)
    (h : run ++ tail <+: digits ++ rest) :
    tail = [] ∧ run <+: digits ∨ run = digits ∧ tail <+: rest := by
  rcases List.prefix_or_prefix_of_prefix ((List.prefix_append run tail).trans h)
    (List.prefix_append digits rest) with ⟨more, rfl⟩ | ⟨more, rfl⟩
  · -- The run ends within the digits, and only then is there another digit where a tail would begin.
    rw [List.append_assoc, List.prefix_append_right_inj] at h
    cases htail with
    | nil => exact .inl ⟨rfl, List.prefix_append _ _⟩
    | run =>
      cases more with
      | nil => exact .inr ⟨(List.append_nil _).symm, h⟩
      | cons c more =>
        have hc := hdigits c (List.mem_append_right _ (List.mem_cons_self ..))
        rw [← (List.cons_prefix_cons.mp h).1, not_isDigit_underscore] at hc
        cases hc
  · -- The run cannot go on behind the digits.
    rw [List.append_assoc, List.prefix_append_right_inj] at h
    cases more with
    | nil => exact .inr ⟨List.append_nil _, h⟩
    | cons c more =>
      have hc := hrun.2 c (List.mem_append_right _ (List.mem_cons_self ..))
      have hhead : rest.head? = some c := by
        obtain ⟨back, rfl⟩ := h
        rfl
      rw [hrest c hhead] at hc
      cases hc

/-- **All the digits and then the longest tail** are the most that a run and a tail can take. -/
theorem run_tail_prefix_longest {digits tail rest : List Char}
    (hdigits : ∀ c ∈ digits, isDigit c = true) (hrest : ∀ c ∈ rest.head?, isDigit c = false)
    (hlongest : ∀ other, IsTail other → other <+: rest → other <+: tail)
    {run other : List Char} (hrun : IsRun run) (hother : IsTail other)
    (h : run ++ other <+: digits ++ rest) : run ++ other <+: digits ++ tail := by
  rcases run_tail_prefix hrun hother hdigits hrest h with ⟨rfl, hshort⟩ | ⟨rfl, hbehind⟩
  · rw [List.append_nil]
    exact hshort.trans (List.prefix_append _ _)
  · rw [List.prefix_append_right_inj]
    exact hlongest other hother hbehind

/-! ## Places in a line -/

/-- **The word and a digit stand at a position** of a line. -/
def StartsAt (line : List Char) (i : Nat) : Prop :=
  ∃ c rest, line.drop i = word ++ c :: rest ∧ isDigit c = true

/-- **The longest id at a position** of a line, where the word and a digit stand. -/
structure TokenAt (line : List Char) (i : Nat) (id : List Char) : Prop where
  starts : StartsAt line i
  token : IsToken id
  here : id <+: line.drop i
  longest : ∀ other, IsToken other → other <+: line.drop i → other.length ≤ id.length

theorem startsAt_drop (line : List Char) (n i : Nat) :
    StartsAt (line.drop n) i ↔ StartsAt line (n + i) := by
  rw [StartsAt, StartsAt, List.drop_drop]

theorem tokenAt_drop (line : List Char) (n i : Nat) (id : List Char) :
    TokenAt (line.drop n) i id ↔ TokenAt line (n + i) id := by
  constructor <;> rintro ⟨hstarts, htoken, hhere, hlongest⟩
  · rw [List.drop_drop] at hhere hlongest
    exact ⟨(startsAt_drop ..).mp hstarts, htoken, hhere, hlongest⟩
  · rw [← List.drop_drop] at hhere hlongest
    exact ⟨(startsAt_drop ..).mpr hstarts, htoken, hhere, hlongest⟩

/-- There is one longest id at a position. -/
theorem TokenAt.unique {line : List Char} {i : Nat} {id id' : List Char} (h : TokenAt line i id)
    (h' : TokenAt line i id') : id = id' :=
  (List.prefix_of_prefix_length_le h.here h'.here (h'.longest id h.token h.here)).eq_of_length_le
    (h.longest id' h'.token h'.here)

/-- No end of the word is a start of it. -/
theorem not_drop_word_prefix : ∀ n < word.length, 0 < n → ¬ word.drop n <+: word := by decide

/-- **No id starts within another one.** In the word it cannot, as no end of the word is a start of it,
and behind the word there are only digits and underscores. -/
theorem not_startsAt_within {line id : List Char} {i p : Nat} (htoken : IsToken id)
    (hhere : id <+: line.drop i) (hi : i < p) (hp : p < i + id.length) : ¬ StartsAt line p := by
  rintro ⟨c, rest, hstart, -⟩
  obtain ⟨run, tail, hrun, htail, rfl⟩ := htoken
  obtain ⟨behind, hbehind⟩ := hhere
  obtain ⟨n, rfl⟩ := Nat.exists_eq_add_of_lt hi
  rw [Nat.add_assoc, ← List.drop_drop, ← hbehind, List.append_assoc] at hstart
  rcases Nat.lt_or_ge (n + 1) word.length with hn | hn
  · rw [List.drop_append_of_le_length (Nat.le_of_lt hn)] at hstart
    refine not_drop_word_prefix (n + 1) hn (Nat.succ_pos n) ?_
    refine List.prefix_of_prefix_length_le (List.prefix_append _ _)
      (hstart ▸ List.prefix_append word _) ?_
    rw [List.length_drop]
    exact Nat.sub_le _ _
  · obtain ⟨m, hm⟩ := Nat.exists_eq_add_of_le hn
    have hlen : m < (run ++ tail).length := by
      rw [List.length_append] at hp
      omega
    rw [hm, ← List.drop_drop, List.drop_left, List.drop_append_of_le_length (Nat.le_of_lt hlen),
      List.drop_eq_getElem_cons hlen] at hstart
    have ha : (run ++ tail)[m] = 'a' := (List.cons.inj hstart).1
    exact notMem_runs hrun htail (ha ▸ List.getElem_mem hlen)

/-! ## The match at the front -/

theorem drop_length_takeWhile (p : Char → Bool) (text : List Char) :
    text.drop (text.takeWhile p).length = text.dropWhile p := by
  have hdrop : (text.takeWhile p ++ text.dropWhile p).drop (text.takeWhile p).length =
      text.dropWhile p := List.drop_left
  rwa [List.takeWhile_append_dropWhile] at hdrop

/-- Digits are taken at the front as long as there are any. -/
theorem takeWhile_isDigit (text : List Char) :
    (∀ c ∈ text.takeWhile isDigit, isDigit c = true) ∧
      ∀ c ∈ (text.dropWhile isDigit).head?, isDigit c = false := by
  refine ⟨fun c hc => List.all_eq_true.mp List.all_takeWhile c hc, fun c hc => ?_⟩
  have hhead := List.head?_dropWhile_not isDigit text
  rwa [Option.mem_def.mp hc] at hhead

/-- **The further runs that are taken** are the longest tail at the front of a text. -/
theorem moreRuns_eq (read text : List Char) :
    ∃ tail rest, text = tail ++ rest ∧ moreRuns read text = (tail.reverse ++ read, rest) ∧
      IsTail tail ∧ ∀ other, IsTail other → other <+: text → other <+: tail := by
  fun_induction moreRuns read text with
  | case1 read rest digits hnone =>
    -- No digit stands behind the underscore.
    refine ⟨[], '_' :: rest, rfl, rfl, .nil, fun other hother hprefix => ?_⟩
    cases hother with
    | nil => exact List.prefix_refl _
    | @run run tail hrun =>
      obtain ⟨c, run, rfl⟩ := List.exists_cons_of_ne_nil hrun.1
      obtain ⟨back, hback⟩ := (List.cons_prefix_cons.mp hprefix).2
      have hdigits : digits = c :: ((run ++ (tail ++ back)).takeWhile isDigit) := by
        rw [← List.takeWhile_cons_of_pos (hrun.2 c (List.mem_cons_self ..))]
        simp [digits, ← hback]
      rw [hdigits] at hnone
      cases hnone
  | case2 read rest digits hsome ih =>
    obtain ⟨tail, after, hrest, hmore, htail, hlongest⟩ := ih
    obtain ⟨hdigits, hhead⟩ := takeWhile_isDigit rest
    have hrun : IsRun digits := ⟨by simpa using hsome, hdigits⟩
    rw [drop_length_takeWhile] at hrest hmore
    have hall : rest = digits ++ (tail ++ after) := by
      rw [← hrest, List.takeWhile_append_dropWhile]
    refine ⟨'_' :: (digits ++ tail), after, ?_, ?_, .run hrun htail, fun other hother hprefix => ?_⟩
    · rw [hall, List.cons_append, List.append_assoc]
    · rw [drop_length_takeWhile, hmore]
      simp [List.reverseAux_eq]
    · cases hother with
      | nil => exact List.nil_prefix
      | @run run other hrun' hother =>
        have hbehind := (List.cons_prefix_cons.mp hprefix).2
        rw [← List.takeWhile_append_dropWhile (p := isDigit) (l := rest)] at hbehind
        rw [drop_length_takeWhile] at hlongest
        exact List.cons_prefix_cons.mpr
          ⟨rfl, run_tail_prefix_longest hdigits hhead hlongest hrun' hother hbehind⟩
  | case3 read text hno =>
    refine ⟨[], text, rfl, rfl, .nil, fun other hother hprefix => ?_⟩
    cases hother with
    | nil => exact List.prefix_refl _
    | run =>
      obtain ⟨back, hback⟩ := hprefix
      exact absurd hback.symm (hno _)

/-- **All the digits behind the word and then the longest tail** are the longest id at the front. -/
theorem tokenAt_front {digits tail after : List Char} (hrun : IsRun digits)
    (hhead : ∀ c ∈ (tail ++ after).head?, isDigit c = false) (htail : IsTail tail)
    (hlongest : ∀ other, IsTail other → other <+: tail ++ after → other <+: tail) :
    TokenAt (word ++ (digits ++ (tail ++ after))) 0 (word ++ (digits ++ tail)) := by
  refine ⟨?_, ⟨digits, tail, hrun, htail, rfl⟩, ⟨after, by simp⟩, ?_⟩
  · obtain ⟨c, run, rfl⟩ := List.exists_cons_of_ne_nil hrun.1
    exact ⟨c, _, rfl, hrun.2 c (List.mem_cons_self ..)⟩
  · rintro _ ⟨run, other, hrun', hother, rfl⟩ hhere
    rw [List.drop_zero, List.prefix_append_right_inj] at hhere
    have hwithin := run_tail_prefix_longest hrun.2 hhead hlongest hrun' hother hhere
    exact ((List.prefix_append_right_inj word).mpr hwithin).length_le

/-- **A match** is the longest id at the front. -/
theorem match?_eq_some {text id rest : List Char} (h : match? text = some (id, rest)) :
    text = id ++ rest ∧ TokenAt text 0 id := by
  unfold match? at h
  split at h
  case isFalse => cases h
  case isTrue hword =>
    dsimp only at h
    split at h
    case isTrue => cases h
    case isFalse hdigit =>
      obtain ⟨text, rfl⟩ := List.isPrefixOf_iff_prefix.mp hword
      rw [List.drop_left, drop_length_takeWhile] at h
      rw [List.drop_left] at hdigit
      obtain ⟨hdigits, hhead⟩ := takeWhile_isDigit text
      have hrun : IsRun (text.takeWhile isDigit) := ⟨by simpa using hdigit, hdigits⟩
      have hsplit := List.takeWhile_append_dropWhile (p := isDigit) (l := text)
      generalize text.takeWhile isDigit = digits at *
      generalize text.dropWhile isDigit = behind at *
      obtain ⟨tail, after, rfl, hmore, htail, hlongest⟩ :=
        moreRuns_eq (word ++ digits).reverse behind
      rw [hmore] at h
      obtain ⟨rfl, rfl⟩ := Prod.mk.inj (Option.some.inj h)
      have hid : (tail.reverse ++ (word ++ digits).reverse).reverse = word ++ (digits ++ tail) := by
        simp
      rw [hid, ← hsplit]
      exact ⟨by simp, tokenAt_front hrun hhead htail hlongest⟩

/-- **Where nothing matches,** no id starts. -/
theorem match?_eq_none {text : List Char} (h : match? text = none) : ¬ StartsAt text 0 := by
  rintro ⟨c, rest, hstart, hc⟩
  rw [List.drop_zero] at hstart
  subst hstart
  simp [match?, hc] at h

/-- **Where the word and a digit stand,** there is an id. -/
theorem StartsAt.exists_tokenAt {line : List Char} {i : Nat} (h : StartsAt line i) :
    ∃ id, TokenAt line i id := by
  have hfront : StartsAt (line.drop i) 0 := (startsAt_drop ..).mpr h
  cases hmatch : match? (line.drop i) with
  | none => exact absurd hfront (match?_eq_none hmatch)
  | some found => exact ⟨found.1, (tokenAt_drop ..).mp (match?_eq_some hmatch).2⟩

/-! ## All the ids of a line -/

/-- **The ids of a line with their places,** from left to right. -/
structure TokensOf (line : List Char) (tokens : List (Nat × List Char)) : Prop where
  sorted : tokens.Pairwise fun token token' => token.1 < token'.1
  mem_iff : ∀ token, token ∈ tokens ↔ TokenAt line token.1 token.2

/-- A place `n` characters further right. -/
def shift (n : Nat) (token : Nat × List Char) : Nat × List Char := (n + token.1, token.2)

@[simp] theorem shift_snd (n : Nat) (token : Nat × List Char) : (shift n token).2 = token.2 := rfl

/-- The places of the text behind the first `n` characters, in the whole text. -/
theorem TokensOf.mem_shift_iff {line : List Char} {n : Nat} {tokens : List (Nat × List Char)}
    (h : TokensOf (line.drop n) tokens) (token : Nat × List Char) :
    token ∈ tokens.map (shift n) ↔ n ≤ token.1 ∧ TokenAt line token.1 token.2 := by
  rw [List.mem_map]
  constructor
  · rintro ⟨⟨i, id⟩, hmem, rfl⟩
    exact ⟨Nat.le_add_right .., (tokenAt_drop ..).mp ((h.mem_iff _).mp hmem)⟩
  · rintro ⟨hle, hat⟩
    obtain ⟨i, hi⟩ := Nat.exists_eq_add_of_le hle
    rw [hi, ← tokenAt_drop] at hat
    exact ⟨(i, token.2), (h.mem_iff _).mpr hat, Prod.ext hi.symm rfl⟩

theorem TokensOf.sorted_shift {line : List Char} {n : Nat} {tokens : List (Nat × List Char)}
    (h : TokensOf (line.drop n) tokens) :
    (tokens.map (shift n)).Pairwise fun token token' => token.1 < token'.1 :=
  List.pairwise_map.mpr (h.sorted.imp fun hlt => Nat.add_lt_add_left hlt n)

/-- **A step behind a match:** the places behind the id, and its own. -/
theorem TokensOf.match {line id : List Char} {tokens : List (Nat × List Char)}
    (hid : TokenAt line 0 id) (h : TokensOf (line.drop id.length) tokens) :
    TokensOf line ((0, id) :: tokens.map (shift id.length)) := by
  have hpos : 0 < id.length := by
    obtain ⟨run, tail, -, -, rfl⟩ := hid.token
    exact Nat.lt_of_lt_of_le (by decide) (List.length_append ▸ Nat.le_add_right ..)
  refine ⟨List.pairwise_cons.mpr ⟨fun token hmem => ?_, h.sorted_shift⟩, fun token => ?_⟩
  · exact Nat.lt_of_lt_of_le hpos ((h.mem_shift_iff token).mp hmem).1
  rw [List.mem_cons, h.mem_shift_iff]
  constructor
  · rintro (rfl | ⟨-, hat⟩)
    · exact hid
    · exact hat
  · intro hat
    rcases Nat.lt_or_ge token.1 id.length with hlt | hge
    · rcases Nat.eq_zero_or_pos token.1 with hzero | hinner
      · exact .inl (Prod.ext hzero ((hzero ▸ hat).unique hid))
      · exact absurd hat.starts
          (not_startsAt_within hid.token hid.here hinner ((Nat.zero_add _).symm ▸ hlt))
    · exact .inr ⟨hge, hat⟩

/-- **A step where nothing matches:** the places behind the first character. -/
theorem TokensOf.skip {line : List Char} {tokens : List (Nat × List Char)}
    (hnone : ¬ StartsAt line 0) (h : TokensOf (line.drop 1) tokens) :
    TokensOf line (tokens.map (shift 1)) := by
  refine ⟨h.sorted_shift, fun token => ?_⟩
  rw [h.mem_shift_iff]
  refine ⟨And.right, fun hat => ⟨Nat.pos_of_ne_zero fun hzero => hnone ?_, hat⟩⟩
  exact hzero ▸ hat.starts

/-- **The search finds all the ids,** behind those that it has found. -/
theorem findFrom_eq_tokens (found : List String) (text : List Char) :
    ∃ tokens, TokensOf text tokens ∧
      findFrom found text = found.reverse ++ tokens.map fun token => String.ofList token.2 := by
  fun_induction findFrom found text with
  | case1 found =>
    refine ⟨[], ⟨.nil, fun token => ⟨nofun, fun hat => ?_⟩⟩, by simp⟩
    obtain ⟨c, rest, hstart, -⟩ := hat.starts
    rw [List.drop_nil] at hstart
    cases hstart
  | case2 found c rest id after hmatch ih =>
    obtain ⟨tokens, htokens, hfind⟩ := ih
    obtain ⟨htext, hid⟩ := match?_eq_some hmatch
    have hrest : TokensOf ((c :: rest).drop id.length) tokens := by rwa [htext, List.drop_left]
    refine ⟨_, .match hid hrest, ?_⟩
    simp [hfind]
  | case3 found c rest hnone ih =>
    obtain ⟨tokens, htokens, hfind⟩ := ih
    refine ⟨_, .skip (match?_eq_none hnone) htokens, ?_⟩
    simp [hfind]

/-- **The ids in a line** are those at all its places, from left to right. -/
theorem find_eq_tokens (line : String) :
    ∃ tokens, TokensOf line.toList tokens ∧
      find line = tokens.map fun token => String.ofList token.2 := by
  obtain ⟨tokens, htokens, hfind⟩ := findFrom_eq_tokens [] line.toList
  exact ⟨tokens, htokens, hfind⟩

end RemoteLog.ApplicationId
