import Correlator.Proofs.Spelling

/-!
# Documents as they are written

Reading a document takes two passes, one from characters to tokens and one from tokens to the tree,
and each undoes what writing does.  The second pass never looks back: it knows the containers that
are still open, so what it does with the tokens of a document does not depend on where the document
stands (`run_tokens`), and a document ends every number in it (`lex_tokens`).

## Main results

* `parse_render` : every document has a text.
* `parse_append` : nothing but blanks may stand behind a document that is no number.
-/

namespace Correlator

open Token Reading

namespace Document

/-- Documents are built from items and members. -/
@[elab_as_elim, induction_eliminator]
theorem induction {motive : Document → Prop} (null : motive .null)
    (bool : ∀ b, motive (.bool b)) (number : ∀ n, motive (.number n))
    (string : ∀ s, motive (.string s))
    (array : ∀ items, (∀ d ∈ items, motive d) → motive (.array items))
    (object : ∀ members, (∀ m ∈ members, motive m.2) → motive (.object members)) :
    ∀ d, motive d
  | .null => null
  | .bool b => bool b
  | .number n => number n
  | .string s => string s
  | .array items => array items fun d _ =>
    induction null bool number string array object d
  | .object members => object members fun m _ =>
    induction null bool number string array object m.2
termination_by d => sizeOf d
decreasing_by
  · rename_i hd
    have := List.sizeOf_lt_of_mem hd
    simp only [Document.array.sizeOf_spec]
    omega
  · rename_i hm
    have hlt := List.sizeOf_lt_of_mem hm
    have hsnd : sizeOf m.2 < sizeOf m := by
      obtain ⟨_, _⟩ := m
      simp only [Prod.mk.sizeOf_spec]
      omega
    simp only [Document.object.sizeOf_spec]
    omega

/-! ## From tokens to the tree -/

variable {d : Document} {outer : List OpenContainer} {ts : List Token}

theorem run_cons (r : Reading) (t : Token) (ts : List Token) :
    r.run (t :: ts) = (r.step t).bind fun r' => r'.run ts := List.foldlM_cons

/-- No document begins by closing an array. -/
theorem tokens_head (d : Document) : ∃ t ts, d.tokens = t :: ts ∧ t ≠ .closeBracket := by
  cases d with
  | array items => cases items <;> exact ⟨_, _, rfl, nofun⟩
  | object members => cases members <;> exact ⟨_, _, rfl, nofun⟩
  | _ => exact ⟨_, _, rfl, nofun⟩

/-- The first item of an array is read like a value. -/
theorem run_firstItem (d : Document) (outer : List OpenContainer) (ts : List Token) :
    (Reading.firstItem outer).run (d.tokens ++ ts) =
      (Reading.value (.array [] :: outer)).run (d.tokens ++ ts) := by
  obtain ⟨t, us, htokens, hne⟩ := d.tokens_head
  rw [htokens, List.cons_append, run_cons, run_cons]
  cases t <;> first | rfl | exact absurd rfl hne

theorem run_moreItems {rest : List Document}
    (hread : ∀ d ∈ rest, ∀ outer ts,
      (Reading.value outer).run (d.tokens ++ ts) = (place d outer).run ts)
    (items : List Document) (outer : List OpenContainer) (ts : List Token) :
    (Reading.afterItem items outer).run (moreItems rest ++ ts) =
      (place (.array (items.reverse ++ rest)) outer).run ts := by
  induction rest generalizing items with
  | nil =>
    rw [List.append_nil]
    rfl
  | cons d rest ih =>
    obtain ⟨hd, hrest⟩ := List.forall_mem_cons.mp hread
    calc (Reading.afterItem items outer).run (moreItems (d :: rest) ++ ts)
      _ = (Reading.value (.array items :: outer)).run (d.tokens ++ (moreItems rest ++ ts)) := by
        rw [moreItems, List.cons_append, List.append_assoc]
        rfl
      _ = (Reading.afterItem (d :: items) outer).run (moreItems rest ++ ts) := hd _ _
      _ = _ := by rw [ih hrest, List.reverse_cons, List.append_assoc, List.singleton_append]

theorem run_moreMembers {rest : List (Option String × Document)}
    (hread : ∀ m ∈ rest, ∀ outer ts,
      (Reading.value outer).run (m.2.tokens ++ ts) = (place m.2 outer).run ts)
    (members : List (Option String × Document)) (outer : List OpenContainer) (ts : List Token) :
    (Reading.afterMember members outer).run (moreMembers rest ++ ts) =
      (place (.object (members.reverse ++ rest)) outer).run ts := by
  induction rest generalizing members with
  | nil =>
    rw [List.append_nil]
    rfl
  | cons m rest ih =>
    obtain ⟨name, d⟩ := m
    obtain ⟨hd, hrest⟩ := List.forall_mem_cons.mp hread
    calc (Reading.afterMember members outer).run (moreMembers ((name, d) :: rest) ++ ts)
      _ = (Reading.value (.object members name :: outer)).run
          (d.tokens ++ (moreMembers rest ++ ts)) := by
        rw [moreMembers, List.cons_append, List.cons_append, List.cons_append, List.append_assoc]
        rfl
      _ = (Reading.afterMember ((name, d) :: members) outer).run (moreMembers rest ++ ts) :=
        hd _ _
      _ = _ := by rw [ih hrest, List.reverse_cons, List.append_assoc, List.singleton_append]

/-- A document is read where a value must come, and put into the container it stands in. What
follows it is read as if the document had been there from the start, so documents can be read one
inside another. -/
theorem run_tokens (d : Document) (outer : List OpenContainer) (ts : List Token) :
    (Reading.value outer).run (d.tokens ++ ts) = (place d outer).run ts := by
  induction d generalizing outer ts with
  | null | bool | number | string => rfl
  | array items ih =>
    cases items with
    | nil => rfl
    | cons d rest =>
      obtain ⟨hd, hrest⟩ := List.forall_mem_cons.mp ih
      calc (Reading.value outer).run ((Document.array (d :: rest)).tokens ++ ts)
        _ = (Reading.firstItem outer).run (d.tokens ++ (moreItems rest ++ ts)) := by
          rw [tokens, List.cons_append, List.append_assoc]
          rfl
        _ = (Reading.afterItem [d] outer).run (moreItems rest ++ ts) := by
          rw [run_firstItem, hd]
          rfl
        _ = _ := run_moreItems hrest _ _ _
  | object members ih =>
    cases members with
    | nil => rfl
    | cons m rest =>
      obtain ⟨name, d⟩ := m
      obtain ⟨hd, hrest⟩ := List.forall_mem_cons.mp ih
      calc (Reading.value outer).run ((Document.object ((name, d) :: rest)).tokens ++ ts)
        _ = (Reading.value (.object [] name :: outer)).run
            (d.tokens ++ (moreMembers rest ++ ts)) := by
          rw [tokens, List.cons_append, List.cons_append, List.cons_append, List.append_assoc]
          rfl
        _ = (Reading.afterMember [(name, d)] outer).run (moreMembers rest ++ ts) := hd _ _
        _ = _ := run_moreMembers hrest _ _ _

theorem build_tokens (d : Document) : build d.tokens = some d := by
  have hrun := run_tokens d [] []
  rw [List.append_nil] at hrun
  rw [build, hrun]
  rfl

/-! ## From characters to tokens -/

theorem isCut_moreItems {items : List Document} {rest : List Char}
    (hcut : ∀ d ∈ items, ∀ rest, EndsNumber rest → IsCut d.tokens rest) :
    IsCut (moreItems items) rest ∧
      EndsNumber ((moreItems items).flatMap Token.write ++ rest) := by
  induction items with
  | nil => exact ⟨.single (.inr nofun), endsNumber_write (t := .closeBracket) nofun rest⟩
  | cons d items ih =>
    obtain ⟨hd, hitems⟩ := List.forall_mem_cons.mp hcut
    obtain ⟨hmore, hends⟩ := ih hitems
    refine ⟨.cons nofun (.append (hd _ hends) hmore), ?_⟩
    rw [moreItems, List.flatMap_cons, List.append_assoc]
    exact endsNumber_write (t := .comma) nofun _

theorem isCut_moreMembers {members : List (Option String × Document)} {rest : List Char}
    (hcut : ∀ m ∈ members, ∀ rest, EndsNumber rest → IsCut m.2.tokens rest) :
    IsCut (moreMembers members) rest ∧
      EndsNumber ((moreMembers members).flatMap Token.write ++ rest) := by
  induction members with
  | nil => exact ⟨.single (.inr nofun), endsNumber_write (t := .closeBrace) nofun rest⟩
  | cons m members ih =>
    obtain ⟨name, d⟩ := m
    obtain ⟨hd, hmembers⟩ := List.forall_mem_cons.mp hcut
    obtain ⟨hmore, hends⟩ := ih hmembers
    refine ⟨.cons nofun (.cons nofun (.cons nofun (.append (hd _ hends) hmore))), ?_⟩
    rw [moreMembers, List.flatMap_cons, List.append_assoc]
    exact endsNumber_write (t := .comma) nofun _

/-- The text of a document is cut into its tokens, if no number runs into what follows. Inside a
container a comma or a bracket follows every document, so only the outermost one needs the
condition. -/
theorem isCut_tokens (d : Document) {rest : List Char} (h : EndsNumber rest) :
    IsCut d.tokens rest := by
  induction d generalizing rest with
  | null | bool | string => exact .single (.inr nofun)
  | number n => exact .single (.inl h)
  | array items ih =>
    cases items with
    | nil => exact .cons nofun (.single (.inr nofun))
    | cons d items =>
      obtain ⟨hd, hitems⟩ := List.forall_mem_cons.mp ih
      obtain ⟨hmore, hends⟩ := @isCut_moreItems items rest fun d hd _ => hitems d hd
      exact .cons nofun (.append (hd hends) hmore)
  | object members ih =>
    cases members with
    | nil => exact .cons nofun (.single (.inr nofun))
    | cons m members =>
      obtain ⟨name, d⟩ := m
      obtain ⟨hd, hmembers⟩ := List.forall_mem_cons.mp ih
      obtain ⟨hmore, hends⟩ := @isCut_moreMembers members rest fun m hm _ => hmembers m hm
      exact .cons nofun (.cons nofun (.cons nofun (.append (hd hends) hmore)))

/-! ## Whole texts -/

/-- Every document is read back from its text: the text is cut into the tokens that were written,
and from these the tree is built again. -/
theorem parse_render (d : Document) : parse d.render = some d := by
  have hlex : lex (d.tokens.flatMap Token.write) = some d.tokens := by
    -- Behind the text is nothing, and nothing ends a number.
    have hcut := d.isCut_tokens EndsNumber.nil
    rw [IsCut, List.append_nil, lex_nil] at hcut
    simpa using hcut
  rw [parse, render, String.toList_ofList, hlex]
  exact d.build_tokens

theorem build_eq_some_iff : build ts = some d ↔ (Reading.value []).run ts = some (.complete d) := by
  rw [build, Option.bind_eq_some_iff]
  constructor
  · rintro ⟨r, hrun, hresult⟩
    cases r <;> cases hresult
    exact hrun
  · exact fun hrun => ⟨_, hrun, rfl⟩

/-- A number completes no document but itself: inside of a container it is an item or a member, and
the bracket that closes the container comes after it. -/
theorem eq_number_of_step {r : Reading} {n : Numeral}
    (h : r.step (.number n) = some (.complete d)) : d = .number n := by
  cases r with
  | value outer =>
    cases outer with
    | nil =>
      cases h
      rfl
    | cons container outer => cases container <;> cases h
  | _ => cases h

theorem getLast?_ne_number (h : build ts = some d) (hd : ∀ n, d ≠ .number n) (n : Numeral) :
    ts.getLast? ≠ some (.number n) := by
  intro hlast
  obtain ⟨us, rfl⟩ := List.getLast?_eq_some_iff.mp hlast
  rw [build_eq_some_iff, run_append] at h
  obtain ⟨r, -, hstep⟩ := Option.bind_eq_some_iff.mp h
  rw [run_cons] at hstep
  obtain ⟨r', hstep, hrest⟩ := Option.bind_eq_some_iff.mp hstep
  cases hrest
  exact hd n (eq_number_of_step hstep)

/-- Behind a complete document no token may come. -/
theorem build_append {us : List Token} (h : build ts = some d) (hus : us ≠ []) :
    build (ts ++ us) = none := by
  obtain ⟨u, us, rfl⟩ := List.exists_cons_of_ne_nil hus
  rw [build, run_append, build_eq_some_iff.mp h]
  rfl

/-- Nothing but blanks may stand behind a document, unless that is a number. -/
theorem parse_append {text more : String} (h : parse text = some d) (hd : ∀ n, d ≠ .number n)
    (hmore : ∃ c ∈ more.toList, isBlank c = false) : parse (text ++ more) = none := by
  obtain ⟨ts, hlex, hbuild⟩ := Option.bind_eq_some_iff.mp h
  rw [parse, String.toList_append, lex_append hlex (getLast?_ne_number hbuild hd)]
  cases hus : lex more.toList with
  | none => rfl
  | some us =>
    refine build_append hbuild ?_
    rintro rfl
    obtain ⟨c, hc, hnot⟩ := hmore
    rw [isBlank_of_lex hus c hc] at hnot
    cases hnot

end Document

end Correlator
