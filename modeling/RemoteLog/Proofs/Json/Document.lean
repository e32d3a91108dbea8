import RemoteLog.Proofs.Json.Token

/-! # JSON documents

A document is a tree with tokens at its leaves and in front of its members. It may be spelt with any
blanks between the tokens. A value that nobody wants is passed over, whatever its tree is: the skipper
stops just behind the text of the value.

* **`Tree`** — documents; **`Spelt part text`** — the texts of a document, and of what is left of its
  lists and objects.
* **`Spelt.exists_starts`**, **`Spelt.endsNumber_items`**, **`Spelt.endsNumber_members`** — the bytes at
  which values start and end.
* **`skipFrom_value`**, **`skipFrom_after`** — one step of the skipper.
* **`skipValue_spelt`** — a value is passed over, and nothing else. -/

namespace RemoteLog.Json

/-! ## Documents -/

/-- **A document:** a scalar, a list, or an object with the bodies of its keys. Keys may come more than
once and in any order. -/
inductive Tree where
  | scalar (token : List UInt8)
  | list (items : List Tree)
  | object (members : List (List UInt8 × Tree))

/-- What stands in front of an item or a member: blanks, and a comma if it is not the first. -/
inductive Lead : Bool → List UInt8 → Prop where
  | first {blanks : List UInt8} (h : Blank blanks) : Lead true blanks
  | further {before behind : List UInt8} (hbefore : Blank before) (hbehind : Blank behind) :
      Lead false (before ++ comma :: behind)

/-- A part of a document: a value, or what is left of a list or an object, up to its end. -/
inductive Part where
  | value (tree : Tree)
  | items (isFirst : Bool) (items : List Tree)
  | members (isFirst : Bool) (members : List (List UInt8 × Tree))

/-- **The texts of a document,** part by part, with any blanks between the tokens. -/
inductive Spelt : Part → List UInt8 → Prop where
  | scalar {token : List UInt8} (h : Scalar token) : Spelt (.value (.scalar token)) token
  | list {items : List Tree} {text : List UInt8} (h : Spelt (.items true items) text) :
      Spelt (.value (.list items)) (openList :: text)
  | object {members : List (List UInt8 × Tree)} {text : List UInt8}
      (h : Spelt (.members true members) text) :
      Spelt (.value (.object members)) (openObject :: text)
  | noItem {isFirst : Bool} {blanks : List UInt8} (h : Blank blanks) :
      Spelt (.items isFirst []) (blanks ++ [Bracket.list.closing])
  | item {isFirst : Bool} {item : Tree} {items : List Tree} {lead text more : List UInt8}
      (hlead : Lead isFirst lead) (hitem : Spelt (.value item) text)
      (hmore : Spelt (.items false items) more) :
      Spelt (.items isFirst (item :: items)) (lead ++ (text ++ more))
  | noMember {isFirst : Bool} {blanks : List UInt8} (h : Blank blanks) :
      Spelt (.members isFirst []) (blanks ++ [Bracket.object.closing])
  | member {isFirst : Bool} {key : List UInt8} {tree : Tree} {members : List (List UInt8 × Tree)}
      {lead before behind text more : List UInt8} (hlead : Lead isFirst lead)
      (hkey : StringBody key) (hbefore : Blank before) (hbehind : Blank behind)
      (hvalue : Spelt (.value tree) text) (hmore : Spelt (.members false members) more) :
      Spelt (.members isFirst ((key, tree) :: members))
        (lead ++ quote :: (key ++ quote :: (before ++ 0x3a :: (behind ++ (text ++ more)))))

/-- A value starts with a byte that tells it from what may stand in its place. -/
theorem Spelt.exists_starts {tree : Tree} {text : List UInt8} (h : Spelt (.value tree) text) :
    ∃ b more, text = b :: more ∧ Starts b := by
  cases h with
  | scalar h =>
    obtain ⟨b, more, heq, hstarts, -⟩ := h.exists_starts
    exact ⟨b, more, heq, hstarts⟩
  | list | object => exact ⟨_, _, rfl, ⟨by decide, by decide, by decide, by decide⟩⟩

theorem endsNumber_cons {b : UInt8} (hdigit : isDigit b = false) (hpoint : b ≠ 0x2e)
    (hsmall : b ≠ 0x65) (hlarge : b ≠ 0x45) (rest : List UInt8) : EndsNumber (b :: rest) := by
  intro c more h
  cases h
  exact ⟨hdigit, hpoint, hsmall, hlarge⟩

/-- Blanks end a number, and so does what ends it behind them. -/
theorem Blank.endsNumber {blanks rest : List UInt8} (h : Blank blanks) (hrest : EndsNumber rest) :
    EndsNumber (blanks ++ rest) := by
  cases blanks with
  | nil => exact hrest
  | cons b more =>
    have hb := h b (List.mem_cons_self ..)
    have hne {c : UInt8} (hc : isSpace c = false) : b ≠ c := by
      rintro rfl
      rw [hb] at hc
      cases hc
    have hdigit : isDigit b = false := by
      cases hdigit : isDigit b with
      | false => rfl
      | true =>
        have hspace := (starts_of_isDigit hdigit).not_space
        rw [hb] at hspace
        cases hspace
    exact endsNumber_cons hdigit (hne (by decide)) (hne (by decide)) (hne (by decide)) _

theorem Lead.endsNumber {lead : List UInt8} (h : Lead false lead) (rest : List UInt8) :
    EndsNumber (lead ++ rest) := by
  cases h with
  | further hbefore =>
    rw [List.append_assoc]
    exact hbefore.endsNumber (endsNumber_cons (by decide) (by decide) (by decide) (by decide) _)

/-- **What follows an item of a list** ends a number. -/
theorem Spelt.endsNumber_items {items : List Tree} {text : List UInt8}
    (h : Spelt (.items false items) text) (rest : List UInt8) : EndsNumber (text ++ rest) := by
  cases h with
  | noItem hblank =>
    rw [List.append_assoc]
    exact hblank.endsNumber (endsNumber_cons (by decide) (by decide) (by decide) (by decide) _)
  | item hlead =>
    rw [List.append_assoc]
    exact hlead.endsNumber _

/-- **What follows a member of an object** ends a number. -/
theorem Spelt.endsNumber_members {members : List (List UInt8 × Tree)} {text : List UInt8}
    (h : Spelt (.members false members) text) (rest : List UInt8) : EndsNumber (text ++ rest) := by
  cases h with
  | noMember hblank =>
    rw [List.append_assoc]
    exact hblank.endsNumber (endsNumber_cons (by decide) (by decide) (by decide) (by decide) _)
  | member hlead =>
    rw [List.append_assoc]
    exact hlead.endsNumber _

/-! ## Passing over a value -/

/-- **One step** where a value comes next. -/
theorem skipFrom_value (opened : List Bracket) (s : List UInt8) :
    skipFrom .value opened s =
      match skipSpace s with
      | [] => .error .endInValue
      | b :: rest =>
        if b = openList then
          match skipSpace rest with
          | [] => .error .endInList
          | c :: more =>
            if c = Bracket.list.closing then skipFrom .after opened more
            else skipFrom .value (.list :: opened) (c :: more)
        else if b = openObject then
          match skipSpace rest with
          | [] => .error .endInObject
          | c :: more =>
            if c = Bracket.object.closing then skipFrom .after opened more
            else
              match skipKey (c :: more) with
              | .error e => .error e
              | .ok r => skipFrom .value (.object :: opened) r
        else
          match skipScalar b rest with
          | .error e => .error e
          | .ok r => skipFrom .after opened r := by
  conv => lhs; rw [skipFrom]
  split
  · next hs => rw [hs]
  · next b rest hs =>
    rw [hs]
    dsimp only
    congr 1
    · split
      · next hr => rw [hr]
      · next hr => rw [hr]
    · congr 1
      · split
        · next hr => rw [hr]
        · next hr =>
          rw [hr]
          dsimp only
          congr 1
          split
          · next hk => rw [hk]
          · next hk => rw [hk]
      · split
        · next hk => rw [hk]
        · next hk => rw [hk]

/-- **One step** behind a value. -/
theorem skipFrom_after (top : Bracket) (outer : List Bracket) (s : List UInt8) :
    skipFrom .after (top :: outer) s =
      match skipSpace s with
      | [] => .error top.ended
      | b :: rest =>
        if b = comma then
          match top with
          | .list => skipFrom .value (.list :: outer) rest
          | .object =>
            match skipKey rest with
            | .error e => .error e
            | .ok r => skipFrom .value (.object :: outer) r
        else if b = top.closing then skipFrom .after outer rest
        else .error top.expectedComma := by
  conv => lhs; rw [skipFrom]
  split
  · next hs => rw [hs]
  · next b rest hs =>
    rw [hs]
    dsimp only
    congr 1
    cases top with
    | list => rfl
    | object =>
      dsimp only
      split
      · next hk => rw [hk]
      · next hk => rw [hk]

/-- A key is passed over with its colon. -/
theorem skipKey_body {blanks key before : List UInt8} (hblanks : Blank blanks)
    (hkey : StringBody key) (hbefore : Blank before) (rest : List UInt8) :
    skipKey (blanks ++ quote :: (key ++ quote :: (before ++ 0x3a :: rest))) = .ok rest := by
  rw [skipKey, skipSpace_append hblanks, skipSpace_cons (by decide)]
  refine (if_pos rfl).trans ?_
  rw [skipString_body hkey]
  dsimp only
  rw [expectColon, skipSpace_append hbefore, skipSpace_cons (by decide)]
  exact if_pos rfl

/-- What passing over a part of a document comes to: a value is left behind, wherever it stands, and
so is the rest of the list or the object that is open. -/
def PassesOver : Part → List UInt8 → Prop
  | .value _, text => ∀ opened blanks rest, Blank blanks → EndsNumber rest →
      skipFrom .value opened (blanks ++ (text ++ rest)) = skipFrom .after opened rest
  | .items true _, text => ∀ opened rest,
      skipFrom .value opened (openList :: (text ++ rest)) = skipFrom .after opened rest
  | .items false _, text => ∀ opened rest,
      skipFrom .after (.list :: opened) (text ++ rest) = skipFrom .after opened rest
  | .members true _, text => ∀ opened rest,
      skipFrom .value opened (openObject :: (text ++ rest)) = skipFrom .after opened rest
  | .members false _, text => ∀ opened rest,
      skipFrom .after (.object :: opened) (text ++ rest) = skipFrom .after opened rest

theorem skipFrom_blanks {blanks : List UInt8} (h : Blank blanks) (opened : List Bracket)
    (s : List UInt8) : skipFrom .value opened (blanks ++ s) = skipFrom .value opened s := by
  rw [skipFrom_value, skipSpace_append h, ← skipFrom_value]

theorem passesOver_noItem {isFirst : Bool} {blanks : List UInt8} (h : Blank blanks) :
    PassesOver (.items isFirst []) (blanks ++ [Bracket.list.closing]) := by
  have hskip (rest : List UInt8) : skipSpace (blanks ++ [Bracket.list.closing] ++ rest) =
      Bracket.list.closing :: rest := by
    rw [List.append_assoc, skipSpace_append h]
    exact skipSpace_cons (by decide) _
  cases isFirst with
  | true =>
    intro opened rest
    rw [skipFrom_value, skipSpace_cons (by decide)]
    refine (if_pos rfl).trans ?_
    rw [hskip]
    exact if_pos rfl
  | false =>
    intro opened rest
    rw [skipFrom_after, hskip]
    exact (if_neg (by decide)).trans (if_pos rfl)

theorem passesOver_noMember {isFirst : Bool} {blanks : List UInt8} (h : Blank blanks) :
    PassesOver (.members isFirst []) (blanks ++ [Bracket.object.closing]) := by
  have hskip (rest : List UInt8) : skipSpace (blanks ++ [Bracket.object.closing] ++ rest) =
      Bracket.object.closing :: rest := by
    rw [List.append_assoc, skipSpace_append h]
    exact skipSpace_cons (by decide) _
  cases isFirst with
  | true =>
    intro opened rest
    rw [skipFrom_value, skipSpace_cons (by decide)]
    refine (if_neg (by decide)).trans ((if_pos rfl).trans ?_)
    rw [hskip]
    exact if_pos rfl
  | false =>
    intro opened rest
    rw [skipFrom_after, hskip]
    exact (if_neg (by decide)).trans (if_pos rfl)

theorem passesOver_item {isFirst : Bool} {item : Tree} {items : List Tree}
    {lead text more : List UInt8} (hlead : Lead isFirst lead) (hitem : Spelt (.value item) text)
    (hmore : Spelt (.items false items) more) (ih : PassesOver (.value item) text)
    (ihmore : PassesOver (.items false items) more) :
    PassesOver (.items isFirst (item :: items)) (lead ++ (text ++ more)) := by
  cases hlead with
  | first hblanks =>
    intro opened rest
    have hends := hmore.endsNumber_items rest
    obtain ⟨c, tail, rfl, hstarts⟩ := hitem.exists_starts
    rw [List.append_assoc, List.append_assoc, skipFrom_value, skipSpace_cons (by decide)]
    refine (if_pos rfl).trans ?_
    rw [skipSpace_append hblanks, List.cons_append, skipSpace_cons hstarts.not_space]
    refine (if_neg hstarts.ne_list).trans ?_
    exact (ih (.list :: opened) [] _ blank_nil hends).trans (ihmore opened rest)
  | further hbefore hbehind =>
    intro opened rest
    have hends := hmore.endsNumber_items rest
    rw [List.append_assoc, List.append_assoc, List.append_assoc, skipFrom_after,
      skipSpace_append hbefore, List.cons_append, skipSpace_cons (by decide)]
    refine (if_pos rfl).trans ?_
    exact (ih (.list :: opened) _ _ hbehind hends).trans (ihmore opened rest)

theorem passesOver_member {isFirst : Bool} {key : List UInt8} {tree : Tree}
    {members : List (List UInt8 × Tree)} {lead before behind text more : List UInt8}
    (hlead : Lead isFirst lead) (hkey : StringBody key) (hbefore : Blank before)
    (hbehind : Blank behind) (hmore : Spelt (.members false members) more)
    (ih : PassesOver (.value tree) text) (ihmore : PassesOver (.members false members) more) :
    PassesOver (.members isFirst ((key, tree) :: members))
      (lead ++ quote :: (key ++ quote :: (before ++ 0x3a :: (behind ++ (text ++ more))))) := by
  -- Behind its key, the member is passed over like any value in an object.
  have hvalue (opened : List Bracket) (rest : List UInt8) :
      skipFrom .value (.object :: opened) (behind ++ (text ++ (more ++ rest))) =
        skipFrom .after opened rest :=
    (ih (.object :: opened) _ _ hbehind (hmore.endsNumber_members rest)).trans (ihmore opened rest)
  cases hlead with
  | first hblanks =>
    intro opened rest
    have hname := skipKey_body blank_nil hkey hbefore (behind ++ (text ++ (more ++ rest)))
    simp only [List.append_assoc, List.cons_append, List.nil_append] at hname ⊢
    rw [skipFrom_value, skipSpace_cons (by decide)]
    refine (if_neg (by decide)).trans ((if_pos rfl).trans ?_)
    rw [skipSpace_append hblanks, skipSpace_cons (by decide)]
    refine (if_neg (by decide)).trans ?_
    rw [hname]
    exact hvalue opened rest
  | further hfront hback =>
    intro opened rest
    have hname := skipKey_body hback hkey hbefore (behind ++ (text ++ (more ++ rest)))
    simp only [List.append_assoc, List.cons_append] at hname ⊢
    rw [skipFrom_after, skipSpace_append hfront, skipSpace_cons (by decide)]
    refine (if_pos rfl).trans ?_
    rw [hname]
    exact hvalue opened rest

/-- **Every part of a document is passed over,** whatever containers are open around it. -/
theorem Spelt.passesOver {part : Part} {text : List UInt8} (h : Spelt part text) :
    PassesOver part text := by
  induction h with
  | scalar h =>
    intro opened blanks rest hblanks hrest
    obtain ⟨b, more, rfl, hstarts, hlist, hobject⟩ := h.exists_starts
    rw [skipFrom_blanks hblanks, skipFrom_value, List.cons_append,
      skipSpace_cons hstarts.not_space]
    simp only [if_neg hlist, if_neg hobject, skipScalar_token h hrest]
  | list h ih | object h ih =>
    intro opened blanks rest hblanks _
    rw [skipFrom_blanks hblanks]
    exact ih opened rest
  | noItem h => exact passesOver_noItem h
  | noMember h => exact passesOver_noMember h
  | item hlead hitem hmore ih ihmore => exact passesOver_item hlead hitem hmore ih ihmore
  | member hlead hkey hbefore hbehind _ hmore ih ihmore =>
    exact passesOver_member hlead hkey hbefore hbehind hmore ih ihmore

/-- **A value that nobody wants is passed over,** with the blanks in front of it and with nothing
behind it. -/
theorem skipValue_spelt {tree : Tree} {blanks text rest : List UInt8} (hblanks : Blank blanks)
    (h : Spelt (.value tree) text) (hrest : EndsNumber rest) :
    skipValue (blanks ++ (text ++ rest)) = .ok rest := by
  rw [skipValue, h.passesOver [] blanks rest hblanks hrest, skipFrom]

end RemoteLog.Json
