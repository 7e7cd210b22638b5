import Booru.Blacklist.Resolution
import Booru.Proofs.Blacklist.Joining
import Booru.Proofs.Run

/-! Users that are known in advance. A table has its names in lower case as whole texts, a
blacklist has them folded one character at a time and in lower case again when they are
looked up. The two meet unless a capital sigma stands at the end of a word, which becomes
another small letter there. -/

namespace Booru

namespace Text

def finalSigma (before : List Char) : List Char → Bool
  | [] => false
  | c :: rest => c == 'Σ' && endsWord before rest || finalSigma (c :: before) rest

theorem lowerFrom_eq_flatMap (before cs : List Char) :
    lowerFrom before cs = cs.flatMap lowerChars ↔ finalSigma before cs = false := by
  induction cs generalizing before with
  | nil => exact iff_of_true rfl rfl
  | cons c rest ih =>
    rw [lowerFrom, List.flatMap_cons, finalSigma, Bool.or_eq_false_iff, ← ih]
    by_cases hc : c = 'Σ'
    · subst hc
      have halone : lowerChars 'Σ' = ['σ'] := rfl
      rw [if_pos rfl, halone]
      cases endsWord before rest <;> simp
    · simp [hc]

theorem finalSigma_of_notMem {cs : List Char} (h : 'Σ' ∉ cs) (before : List Char) :
    finalSigma before cs = false := by
  induction cs generalizing before with
  | nil => rfl
  | cons c rest ih =>
    rw [List.mem_cons, not_or] at h
    rw [finalSigma, ih h.2, beq_false_of_ne (Ne.symm h.1)]
    rfl

end Text

namespace Blacklist

open Run Text

variable {σ : Type} {name : String} {id : Int}

/-! ### Names in lower case -/

theorem foldChar_ne_capitalSigma (c : Char) : foldChar c ≠ 'Σ' := by
  intro h
  have hfolded := foldChar_foldChar c
  rw [h] at hfolded
  exact absurd hfolded (by decide)

theorem lowerChars_foldChar {c : Char} (h : isTagChar c = true) :
    lowerChars (foldChar c) = lowerChars c := by
  by_cases hdot : c = dottedCapitalI
  · subst hdot
    rfl
  · rw [foldChar_eq_lowerChar h hdot, lowerChars, if_neg (lowerChar_ne_dottedCapitalI hdot),
      lowerChar_lowerChar, lowerChars, if_neg hdot]

theorem toList_lower_foldName (h : IsName name.toList) :
    (lower (foldName name)).toList = name.toList.flatMap lowerChars := by
  have hsigma : 'Σ' ∉ (foldName name).toList := by
    rw [toList_foldName]
    intro hmem
    obtain ⟨c, -, hc⟩ := List.mem_map.mp hmem
    exact foldChar_ne_capitalSigma c hc
  rw [lower, String.toList_ofList, (lowerFrom_eq_flatMap [] _).mpr (finalSigma_of_notMem hsigma []),
    toList_foldName, List.flatMap_map]
  exact List.flatMap_congr fun c hc => lowerChars_foldChar (h.tags c hc)

theorem lower_foldName (h : IsName name.toList) :
    lower (foldName name) = lower name ↔ finalSigma [] name.toList = false := by
  rw [← lowerFrom_eq_flatMap, ← String.toList_inj, toList_lower_foldName h, lower,
    String.toList_ofList, eq_comm]

/-! ### One user -/

theorem lex_user (h : IsName name.toList) :
    lex ("user:" ++ name) = .ok [[.ofUser (foldName name) false]] := by
  have hkind : IsName TokenKind.user.name.toList := (isFolded_kind .user).isName
  have hspelled : "user:" ++ name =
      String.ofList (TokenKind.user.name.toList ++ ':' :: name.toList) := by
    rw [← String.toList_inj, String.toList_ofList, String.toList_append]
    rfl
  have hunsigned := @lexUnsigned_user false (TokenKind.user.name.toList ++ ':' :: name.toList)
    _ _ hkind
    (fold_kind .user) h
  have htoken : wordToken (TokenKind.user.name.toList ++ ':' :: name.toList) =
      .ok (.ofUser (foldName name) false) := by
    have hhead : (TokenKind.user.name.toList ++ ':' :: name.toList).head? ≠ some '-' := by
      simp [TokenKind.name]
    rw [← lexToken_positive hhead, String.ofList_toList] at hunsigned
    simp only [wordToken, hunsigned]
  rw [hspelled, lex_word (hkind.isWord_special h.isWord.unbroken), htoken]

theorem lookUpNumber_table (table : UserTable) (name : String) (s : σ) :
    lookUpNumber table.lookup name s = match table.find? name with
      | some n => (userNumber name (.int n), s)
      | none => (.error (.unresolvable name (.lookup (.unknown (some name)))), s) := by
  rw [lookUpNumber, bind_apply, tryCatch_apply, UserTable.lookup,
    UserTable.number, Option.getD_some]
  cases table.find? name with
  | some n => rfl
  | none => rfl

theorem find?_single (name key : String) (id : Int) :
    (UserTable.ofList [(key, id)]).find? name = if lower key = lower name
      then some id else none := by
  by_cases h : lower key = lower name
  · simp [UserTable.ofList, UserTable.find?, h]
  · simp [UserTable.ofList, UserTable.find?, h]

theorem resolve_user (lookup : UserLookup σ) (name : String) (s : σ) :
    resolve ⟨[[.ofUser name false]]⟩ lookup s = match lookUpNumber lookup name s with
      | (.ok n, t) => (.ok (⟨[[(Token.ofUser name false).resolvedTo n]]⟩, 1), t)
      | (.error f, t) => (.error f, t) := by
  have hunresolved : (Token.ofUser name false).isUnresolvedUser = true := rfl
  have hpayload : (Token.ofUser name false).payload = name := rfl
  have htokens : Blacklist.tokens ⟨[[.ofUser name false]]⟩ = [.ofUser name false] := rfl
  have hone : lookUpNumbers lookup [.ofUser name false] [] s = match lookUpNumber lookup name s with
      | (.ok n, t) => (.ok [(name, n)], t)
      | (.error f, t) => (.error f, t) := by
    rw [lookUpNumbers, hunresolved, hpayload, List.lookup_nil, Option.isNone_none,
      if_pos (Bool.and_true true), bind_apply]
    rcases lookUpNumber lookup name s with ⟨f | n, t⟩
    · rfl
    · rfl
  simp only [resolve, resolveInPlace, htokens, hone]
  rcases lookUpNumber lookup name s with ⟨f | n, t⟩
  · rfl
  · have hnumbered : (Token.ofUser name false).numbered [(name, n)] =
        .ok ((Token.ofUser name false).resolvedTo n) := by
      rw [Token.numbered, hpayload, List.lookup_cons_self]
      rfl
    have hlines : numberedLines [(name, n)] [[.ofUser name false]] =
        (.ok 1, [[(Token.ofUser name false).resolvedTo n]]) := by
      simp only [numberedLines, Line.numbered, hunresolved, hnumbered, if_true]
      rfl
    simp only [hlines]
    rfl

/-- A user whose name is in a table of users is resolved from it, as long as no capital sigma ends a
word of the name. If one does, the name that is looked up is not the one in the table. -/
theorem resolve_user_from_own_table (hname : IsName name.toList)
    (hid : fitsWord id = true) (s : σ) :
    parse ("user:" ++ name) = .ok ⟨[[.ofUser (foldName name) false]]⟩ ∧
      UserTable.ofMembers [(name, .int id)] = .ok (.ofList [(name, id)]) ∧
      resolve ⟨[[.ofUser (foldName name) false]]⟩ (UserTable.ofList [(name, id)]).lookup s =
        (if finalSigma [] name.toList then
          .error (.unresolvable (foldName name) (.lookup (.unknown (some (foldName name)))))
        else .ok (⟨[[(Token.ofUser (foldName name) false).resolvedTo id]]⟩, 1), s) := by
  refine ⟨parse_eq_ok.mpr (lex_user hname), rfl, ?_⟩
  rw [resolve_user, lookUpNumber_table, find?_single]
  have hmeet := lower_foldName hname
  by_cases hsigma : finalSigma [] name.toList = true
  · have hmissed : ¬ lower name = lower (foldName name) :=
      fun heq => by simp [hmeet.mp heq.symm] at hsigma
    rw [if_neg hmissed, if_pos hsigma]
  · rw [Bool.not_eq_true] at hsigma
    rw [if_pos (hmeet.mpr hsigma).symm, hsigma]
    simp only [userNumber, hid, if_true, Bool.false_eq_true, if_false]

set_option maxRecDepth 4000 in
/-- A name with a sigma in it: in front of another letter it is found, at the end it is not. -/
theorem resolve_sigma_from_own_table :
    resolve ⟨[[.ofUser "σa" false]]⟩ (UserTable.ofList [("ΣA", 5)]).lookup () =
        (.ok (⟨[[(Token.ofUser "σa" false).resolvedTo 5]]⟩, 1), ()) ∧
      resolve ⟨[[.ofUser "aσ" false]]⟩ (UserTable.ofList [("AΣ", 5)]).lookup () =
        (.error (.unresolvable "aσ" (.lookup (.unknown (some "aσ")))), ()) := by
  have hnames (s : String) (hne : s.toList ≠ []) (htags : s.toList.all isTagChar = true) :
      IsName s.toList :=
    ⟨hne, List.all_eq_true.mp htags⟩
  have hstart := (@resolve_user_from_own_table Unit "ΣA" 5 (hnames "ΣA" (by decide) (by decide))
    (by decide) ()).2.2
  have hend := (@resolve_user_from_own_table Unit "AΣ" 5 (hnames "AΣ" (by decide) (by decide))
    (by decide) ()).2.2
  have hfold : foldName "ΣA" = "σa" ∧ foldName "AΣ" = "aσ" := by decide
  have hsigma : finalSigma [] "ΣA".toList = false ∧ finalSigma [] "AΣ".toList = true := by decide
  rw [hfold.1, hsigma.1] at hstart
  rw [hfold.2, hsigma.2] at hend
  exact ⟨hstart, hend⟩

end Blacklist
end Booru
