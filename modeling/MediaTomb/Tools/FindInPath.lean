/-
  `find_in_path` (`tools.cc`): the first entry of PATH that has a file.

  DATA.     the tokens of PATH, which a colon ends.  A token that does not begin with a slash is no
            entry of its own: the colon before it belongs to the entry.
  PROGRAM.  a loop that looks ONE token ahead and puts it back behind the colon where it has to.
  RESULT.   the first entry that has the file, exactly if the loop gets that far
            (`findInPath_iff`): after it has put a token back, its `path` is nil, and `while
            (path != nil)` takes that for the end of PATH.
-/
import MediaTomb.Encodings

namespace MediaTomb

/-! ## The program -/

def colon : UInt8 := ':'.toUInt8

def slash : UInt8 := '/'.toUInt8

/-- `StringTokenizer::nextToken` on what is left of the text: the token and what is left then. -/
def nextToken (seps : Str) (text : Str) : Option Str × Str :=
  let rest := text.dropWhile seps.contains
  if rest = [] then (none, [])
  else (some (rest.takeWhile fun c => !seps.contains c), rest.dropWhile fun c => !seps.contains c)

/-- A token that is no entry is put back behind the colon before it. -/
def joinNext (path : Str) : Option Str → Str × Option Str
  | none => (path, none)
  | some next =>
    if next.head? ≠ some slash then (path ++ colon :: next, none) else (path, some next)

/-- The path of the file in an entry, where it is there. -/
def checkEntry (checkPath : Str → Bool) (exec path : Str) : Option Str :=
  let check := path ++ slash :: exec
  if checkPath check then some check else none

/-- The loop of `find_in_path`; the outer `none` is a loop that has not ended. -/
def findLoop (checkPath : Str → Bool) (exec : Str) : Nat → Str → Option Str → Option (Option Str)
  | 0, _, _ => none
  | fuel + 1, text, path =>
    let (path, text) := match path with
      | none => nextToken [colon] text
      | some path => (some path, text)
    let (next, text) := nextToken [colon] text
    match path with
    | none => some none
    | some path =>
      match joinNext path next with
      | (path, next) =>
        match checkEntry checkPath exec path, next with
        | some check, _ => some (some check)
        | none, some next => findLoop checkPath exec fuel text (some next)
        | none, none => some none

/-- `find_in_path`: `checkPath` is the file system's answer, `PATH` the value of the variable. -/
def findInPath (checkPath : Str → Bool) (PATH : Option Str) (exec : Str) : Option (Option Str) :=
  match PATH with
  | none | some [] => some none
  | some text => findLoop checkPath exec (text.length + 1) text none

/-! ## What it is for -/

/-- The entries from one on that has been read so far. -/
def entriesFrom (entry : Str) : List Str → List Str
  | [] => [entry]
  | token :: tokens =>
    if token.head? = some slash then entry :: entriesFrom token tokens
    else entriesFrom (entry ++ colon :: token) tokens

/-- **The entries of PATH**: a token that does not begin with a slash belongs to the one before. -/
def entries : List Str → List Str
  | [] => []
  | token :: tokens => entriesFrom token tokens

def pathTokens (PATH : Option Str) : List Str := splitString PATH colon false

/-- The path of the file in the first entry that has it. -/
def firstInPath (checkPath : Str → Bool) (PATH : Option Str) (exec : Str) : Option Str :=
  ((entries (pathTokens PATH)).find? fun entry => checkPath (entry ++ slash :: exec)).map
    (· ++ slash :: exec)

/-- The loop goes no further than `entry`, so the file is in it and in no entry before it, or in
    none of the entries from here on. -/
def EndsRight (has : Str → Bool) (entry : Str) (entries : List Str) : Prop :=
  if has entry then entries.find? has = some entry else ∀ e ∈ entries, has e = false

/-- **The loop gets far enough**: it finds the file before it puts a token back, or the first place
    where it does is the right one to end. -/
def LooksFarEnough (has : Str → Bool) : Str → List Str → Prop
  | _, [] => True
  | entry, token :: tokens =>
    if token.head? = some slash then has entry = true ∨ LooksFarEnough has token tokens
    else EndsRight has (entry ++ colon :: token) (entriesFrom (entry ++ colon :: token) tokens)

section

variable {text token : Str} {tokens : List Str} {checkPath : Str → Bool} {exec : Str}

/-! ## Tokens -/

theorem contains_colon (c : UInt8) : [colon].contains c = (c == colon) := by
  rw [List.contains_cons, List.contains_nil, Bool.or_false]

/-- Separators in front are skipped. -/
theorem splitString_dropWhile (text : Str) :
    splitStringFrom colon false [] (text.dropWhile [colon].contains) =
      splitStringFrom colon false [] text := by
  induction text with
  | nil => rfl
  | cons c text ih =>
    rw [List.dropWhile_cons, contains_colon]
    by_cases hc : (c == colon) = true
    · rw [if_pos hc, ih, splitStringFrom, if_pos hc, if_pos rfl,
        if_neg (show ¬ (text ≠ [] ∧ false = true) from fun h => Bool.false_ne_true h.2)]
    · rw [if_neg hc]

/-- **`nextToken`** takes the first token, and leaves the text of the others. -/
theorem nextToken_spec (text : Str) : ∃ rest,
    nextToken [colon] text = ((splitString (some text) colon false).head?, rest) ∧
      splitString (some rest) colon false = (splitString (some text) colon false).tail ∧
      (∀ token ∈ (splitString (some text) colon false).head?, rest.length < text.length) := by
  show ∃ rest, nextToken [colon] text = ((splitStringFrom colon false [] text).head?, rest) ∧
    splitStringFrom colon false [] rest = (splitStringFrom colon false [] text).tail ∧
    ∀ token ∈ (splitStringFrom colon false [] text).head?, rest.length < text.length
  have hskip := splitString_dropWhile text
  have hshort := (List.dropWhile_sublist [colon].contains (l := text)).length_le
  have hfirst := List.head?_dropWhile_not [colon].contains text
  unfold nextToken
  simp only
  rw [← hskip]
  generalize text.dropWhile [colon].contains = r at *
  by_cases hnil : r = []
  · subst hnil
    rw [if_pos rfl]
    exact ⟨[], rfl, rfl, fun token h => nomatch h⟩
  · rw [if_neg hnil]
    have hcut := List.takeWhile_append_dropWhile (p := fun c => !([colon].contains c)) (l := r)
    have hplain : colon ∉ r.takeWhile fun c => !([colon].contains c) := by
      intro hmem
      have hc := List.mem_takeWhile_imp hmem
      rw [contains_colon, beq_self_eq_true] at hc
      cases hc
    have hbehind := List.head?_dropWhile_not (fun c => !([colon].contains c)) r
    have hne : r.takeWhile (fun c => !([colon].contains c)) ≠ [] := by
      rcases r with _ | ⟨c, r⟩
      · exact absurd rfl hnil
      · have hc : [colon].contains c = false := by simpa using hfirst
        rw [List.takeWhile_cons, hc]
        exact List.cons_ne_nil _ _
    generalize r.takeWhile (fun c => !([colon].contains c)) = p at *
    generalize r.dropWhile (fun c => !([colon].contains c)) = q at *
    subst hcut
    have hpos := List.length_pos_iff.mpr hne
    rw [List.length_append] at hshort
    rcases q with _ | ⟨c, q⟩
    · rw [List.append_nil, splitStringFrom_last hplain hne]
      refine ⟨[], rfl, rfl, fun token _ => ?_⟩
      rw [List.length_nil]
      omega
    · -- what ends the token is a colon, and it is skipped the next time
      have hc : [colon].contains c = true := by simpa using hbehind
      rw [contains_colon, beq_iff_eq] at hc
      subst hc
      rw [splitStringFrom_part hplain hne]
      refine ⟨colon :: q, rfl, ?_, fun token _ => by omega⟩
      rw [splitStringFrom, if_pos (beq_self_eq_true _), if_pos rfl,
        if_neg (show ¬ (q ≠ [] ∧ false = true) from fun h => Bool.false_ne_true h.2)]
      rfl

/-! ## The loop -/

theorem checkEntry_pos {path : Str} (h : checkPath (path ++ slash :: exec) = true) :
    checkEntry checkPath exec path = some (path ++ slash :: exec) := if_pos h

theorem checkEntry_neg {path : Str} (h : ¬ checkPath (path ++ slash :: exec) = true) :
    checkEntry checkPath exec path = none := if_neg h

/-- The loop on tokens: the entry it takes, if any. -/
def lookThrough (has : Str → Bool) (entry : Str) : List Str → Option Str
  | [] => if has entry then some entry else none
  | token :: tokens =>
    if token.head? = some slash then
      if has entry then some entry else lookThrough has token tokens
    else if has (entry ++ colon :: token) then some (entry ++ colon :: token) else none

theorem findLoop_tokens : ∀ (fuel : Nat) (text entry : Str), text.length < fuel →
    findLoop checkPath exec fuel text (some entry) =
      some ((lookThrough (fun e => checkPath (e ++ slash :: exec)) entry
        (splitString (some text) colon false)).map (· ++ slash :: exec)) := by
  intro fuel
  induction fuel with
  | zero =>
    intro text entry h
    omega
  | succ fuel ih =>
    intro text entry hfuel
    obtain ⟨rest, hnext, hrest, hshort⟩ := nextToken_spec text
    rw [findLoop]
    simp only
    rw [hnext]
    rcases htokens : splitString (some text) colon false with _ | ⟨token, tokens⟩
    · rw [List.head?_nil, joinNext, lookThrough]
      by_cases hcheck : checkPath (entry ++ slash :: exec) = true
      · rw [checkEntry_pos hcheck, if_pos hcheck]
        rfl
      · rw [checkEntry_neg hcheck, if_neg hcheck]
        rfl
    · rw [htokens] at hrest hshort
      have hless := hshort token rfl
      rw [List.head?_cons, joinNext, lookThrough]
      by_cases habs : token.head? = some slash
      · rw [if_neg (not_not.mpr habs), if_pos habs]
        by_cases hcheck : checkPath (entry ++ slash :: exec) = true
        · simp only
          rw [checkEntry_pos hcheck, if_pos hcheck]
          rfl
        · simp only
          rw [checkEntry_neg hcheck, if_neg hcheck]
          simp only
          rw [ih rest token (by omega), hrest]
          rfl
      · rw [if_pos habs, if_neg habs]
        by_cases hcheck : checkPath (entry ++ colon :: token ++ slash :: exec) = true
        · simp only
          rw [checkEntry_pos hcheck, if_pos hcheck]
          rfl
        · simp only
          rw [checkEntry_neg hcheck, if_neg hcheck]
          rfl

/-- **What `find_in_path` returns.** -/
theorem findInPath_eq (checkPath : Str → Bool) (PATH : Option Str) (exec : Str) :
    findInPath checkPath PATH exec = some (match pathTokens PATH with
      | [] => none
      | token :: tokens => (lookThrough (fun e => checkPath (e ++ slash :: exec)) token tokens).map
        (· ++ slash :: exec)) := by
  rcases PATH with _ | _ | ⟨c, text⟩
  · rfl
  · rfl
  · show findLoop checkPath exec ((c :: text).length + 1) (c :: text) none = _
    obtain ⟨rest, hnext, hrest, hshort⟩ := nextToken_spec (c :: text)
    unfold pathTokens
    rw [findLoop]
    simp only
    rw [hnext]
    rcases htokens : splitString (some (c :: text)) colon false with _ | ⟨token, tokens⟩
    · rfl
    · -- from the first token on it is the loop with that token in `path`
      rw [htokens] at hrest hshort
      have hless := hshort token rfl
      have hloop := @findLoop_tokens checkPath exec
        ((c :: text).length + 1) rest token (by omega)
      rw [hrest, List.tail_cons, findLoop] at hloop
      exact hloop

/-! ## How far it gets -/

/-- From an entry on, the loop finds what it is to find exactly if it gets far enough. -/
theorem lookThrough_iff (has : Str → Bool) (tokens : List Str) : ∀ entry : Str,
    lookThrough has entry tokens = (entriesFrom entry tokens).find? has ↔
      LooksFarEnough has entry tokens := by
  induction tokens with
  | nil =>
    intro entry
    have hsame : lookThrough has entry [] = (entriesFrom entry []).find? has := by
      rw [lookThrough, entriesFrom, List.find?_cons]
      split <;> simp_all
    exact ⟨fun _ => trivial, fun _ => hsame⟩
  | cons token tokens ih =>
    intro entry
    rw [lookThrough, entriesFrom, LooksFarEnough]
    by_cases habs : token.head? = some slash
    · rw [if_pos habs, if_pos habs, if_pos habs, List.find?_cons]
      rcases has entry with _ | _
      · rw [if_neg Bool.false_ne_true]
        exact (ih token).trans ⟨.inr, fun h => h.resolve_left Bool.false_ne_true⟩
      · rw [if_pos rfl]
        exact ⟨fun _ => .inl rfl, fun _ => rfl⟩
    · rw [if_neg habs, if_neg habs, if_neg habs, EndsRight]
      by_cases hhas : has (entry ++ colon :: token) = true
      · rw [if_pos hhas, if_pos hhas]
        exact eq_comm
      · rw [if_neg hhas, if_neg hhas, eq_comm, List.find?_eq_none]
        exact forall₂_congr fun e _ => iff_of_eq (Bool.not_eq_true (has e))

/-- **When `find_in_path` finds the first entry that has the file**, and nothing only if none has. -/
theorem findInPath_iff (checkPath : Str → Bool) (PATH : Option Str) (exec : Str) :
    findInPath checkPath PATH exec = some (firstInPath checkPath PATH exec) ↔
      ∀ token tokens, pathTokens PATH = token :: tokens →
        LooksFarEnough (fun e => checkPath (e ++ slash :: exec)) token tokens := by
  rw [findInPath_eq]
  unfold firstInPath
  rcases htokens : pathTokens PATH with _ | ⟨token, tokens⟩
  · exact ⟨fun _ token tokens h => (nomatch h), fun _ => rfl⟩
  · have hinj : Function.Injective fun e : Str => e ++ slash :: exec :=
      fun e e' h => List.append_cancel_right h
    simp only [Option.some.injEq, entries, (Option.map_injective hinj).eq_iff, lookThrough_iff]
    constructor
    · intro h token' tokens' heq
      obtain ⟨rfl, rfl⟩ := List.cons.inj heq
      exact h
    · exact fun h => h token tokens rfl

/-- **An entry behind one with a colon in it is not looked at.** -/
theorem findInPath_behind_colon : ¬ ∀ (checkPath : Str → Bool) (PATH : Option Str) (exec : Str),
    findInPath checkPath PATH exec = some (firstInPath checkPath PATH exec) := by
  intro hclaim
  have hrun := hclaim (fun path => path = str "/usr/bin/ffmpeg") (some (str "/opt/a:b:/usr/bin"))
    (str "ffmpeg")
  exact absurd hrun (by decide +kernel)

example : firstInPath (fun path => path = str "/usr/bin/ffmpeg") (some (str "/opt/a:b:/usr/bin"))
    (str "ffmpeg") = some (str "/usr/bin/ffmpeg") := by decide +kernel

end

end MediaTomb
