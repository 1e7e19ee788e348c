import ReversePolish.CommandLine.Arguments
import ReversePolish.CommandLine.Screen

/-!
# ReversePolish.Proofs.Terminal

The calculator's own reader and its own console do **what the commands rely on**.

Design points:

* A reader looks at the arguments one by one. Words that are no options are passed on
  (`CommandWords.read_append`), up to the end of the arguments or to `--`, behind which
  everything is a word.
* A console differs from its layout in a markup only, and there in nothing but tags
  (`Screen.dropTags_of_not_mem`).
-/

namespace ReversePolish

/-! ### Arguments -/

theorem ne_of_isOption_eq_false {word option : Text} (hword : isOption word = false)
    (hoption : isOption option = true) : word ≠ option := by
  rintro rfl
  exact Bool.false_ne_true (hword.symm.trans hoption)

theorem isOption_of_isName {name : Text} (h : Command.isName name = true) :
    isOption name = false := by
  simp only [Command.isName, Bool.or_eq_true, decide_eq_true_eq] at h
  rcases h with (rfl | rfl) | rfl <;> decide

theorem Command.isName_of_ofWords? {name : Text} {words : List Text} {command : Command}
    (h : ofWords? name words = some command) : isName name = true := by
  simp only [isName, Bool.or_eq_true, decide_eq_true_eq]
  by_cases heval : name = "eval".toList
  · exact Or.inl (Or.inl heval)
  · by_cases hfile : name = "file".toList
    · exact Or.inl (Or.inr hfile)
    · by_cases hdemo : name = "demo".toList
      · exact Or.inr hdemo
      · unfold ofWords? at h
        rw [if_neg heval, if_neg hfile, if_neg hdemo] at h
        cases h

namespace Opening

theorem extend_word (opening : Opening) {word : Text} (h : isOption word = false)
    (rest : List Text) :
    opening.extend (word :: rest) = some { opening with rest := word :: rest } := by
  have hend : word ≠ optionsEnd := ne_of_isOption_eq_false h (by decide)
  rw [extend, if_neg hend, h, if_neg Bool.false_ne_true]

theorem read_skipOptions (skipEmpty : Bool) {word : Text} (h : isOption word = false)
    (rest : List Text) :
    read (skipOptions skipEmpty ++ word :: rest) =
      some ⟨⟨skipEmpty, false⟩, false, word :: rest⟩ := by
  cases skipEmpty with
  | false => exact extend_word plain h rest
  | true =>
      have hoption : plain.withOption "--skip-empty".toList =
          some ⟨⟨true, false⟩, false, []⟩ := by decide
      have hend : "--skip-empty".toList ≠ optionsEnd := by decide
      have his : isOption "--skip-empty".toList = true := by decide
      rw [read, skipOptions, if_pos rfl, List.singleton_append, extend, if_neg hend, if_pos his,
        hoption]
      exact extend_word _ h rest

end Opening

namespace CommandWords

/-- Words that are no options are passed on as they stand. -/
theorem read_append {before : List Text} (h : ∀ word ∈ before, isOption word = false)
    {takesOptions : Bool} {rest words : List Text}
    (hrest : read takesOptions rest = some ⟨words, false⟩) :
    read takesOptions (before ++ rest) = some ⟨before ++ words, false⟩ := by
  induction before with
  | nil => exact hrest
  | cons word before ih =>
      obtain ⟨hword, hbefore⟩ := List.forall_mem_cons.mp h
      have hend : word ≠ optionsEnd := ne_of_isOption_eq_false hword (by decide)
      have hhelp : word ≠ helpOption := ne_of_isOption_eq_false hword (by decide)
      rw [List.cons_append, read, if_neg hend, if_neg hhelp, hword, Bool.false_and,
        if_neg Bool.false_ne_true, ih hbefore]
      rfl

theorem read_of_writes {words arguments : List Text} (h : Writes words arguments)
    (takesOptions : Bool) : read takesOptions arguments = some ⟨words, false⟩ := by
  cases h with
  | plain hwords =>
      have hread := @read_append words hwords takesOptions [] [] rfl
      rwa [List.append_nil] at hread
  | ended hbefore => exact read_append hbefore (if_pos rfl)

end CommandWords

theorem ofArguments_name (skipEmpty : Bool) {name : Text} (h : Command.isName name = true)
    (arguments : List Text) :
    Request.ofArguments (skipOptions skipEmpty ++ name :: arguments) =
      Request.ofCommand ⟨skipEmpty, false⟩ name arguments := by
  have hread := Opening.read_skipOptions skipEmpty (isOption_of_isName h) arguments
  have hempty : (skipOptions skipEmpty ++ name :: arguments).isEmpty = false := by
    rw [List.isEmpty_eq_false_iff]
    exact List.append_ne_nil_of_right_ne_nil _ (List.cons_ne_nil _ _)
  simp only [Request.ofArguments, hempty, hread, h, Bool.false_eq_true, if_false, if_true]

/-- The calculator finds the command whose words the arguments write. -/
theorem readsArguments_ofArguments : ReadsArguments Request.ofArguments := by
  intro name words arguments command hwrites hcommand skipEmpty
  have hread := CommandWords.read_of_writes hwrites (name = "eval".toList)
  rw [ofArguments_name skipEmpty (Command.isName_of_ofWords? hcommand)]
  simp only [Request.ofCommand, hread, hcommand, Bool.false_eq_true, if_false]

/-! ### Texts -/

namespace Screen

theorem dropTags_of_not_mem {text : Text} (h : '[' ∉ text) : dropTags false text = text := by
  induction text with
  | nil => rfl
  | cons c rest ih =>
      have hc : c ≠ '[' := fun heq => h (heq ▸ List.mem_cons_self)
      have hrest : '[' ∉ rest := fun hmem => h (List.mem_cons_of_mem c hmem)
      rw [dropTags, if_neg Bool.false_ne_true, if_neg hc, ih hrest]

/-- The calculator's console prints texts. -/
theorem printsTexts_console : console.PrintsTexts where
  text _ _ := rfl
  markup text h := by
    have hnone : '[' ∉ text := fun hmem => (h '[' hmem).1 rfl
    change print (dropTags false text) = print text
    rw [dropTags_of_not_mem hnone]

end Screen

end ReversePolish
