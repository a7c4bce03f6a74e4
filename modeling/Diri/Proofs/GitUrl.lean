/-
All spellings of a remote have one normal form.

A remote is a host and the path of a repository on it; a spelling adds what origins add: a
scheme or the colon of scp, a user, a port, one `.git` and slashes at the end.  The normal
form is host and path in lower case with a slash between (`normalize_spelling`), so it is the
same for two spellings exactly if host and path are the same but for case, and it is itself a
spelling of a remote whose normal form it is.

A path does not begin with a slash here, and what it ends with is neither a slash nor `.git`.
-/
import Diri.Engine.GitUrl

namespace Diri

open List Option

namespace GitUrl

variable (tables : Tables)

/-- A part of an origin that has none of the characters between parts. -/
def Plain (part : List Char) : Prop :=
  ∀ c ∈ part, c ≠ '/' ∧ c ≠ ':' ∧ c ≠ '@' ∧ tables.chars.isWhitespace c = false

structure Remote where
  host : List Char
  path : List Char
  host_ne : host ≠ []
  host_plain : Plain tables host
  path_ne : path ≠ []
  path_head : path.head? ≠ some '/'
  path_last : ∀ c ∈ path.getLast?, c ≠ '/' ∧ tables.chars.isWhitespace c = false
  path_git : ¬".git".toList <:+ tables.casing.toLowercase path

inductive Form
  /-- `user@host:path`. -/
  | scp
  /-- `user@host/path`. -/
  | bare
  /-- `scheme://user@host:port/path`. -/
  | url (scheme : List Char) (port : Option (List Char))

/-- ASCII text that is the same as another one but for case. -/
def SameLetters (text lower : List Char) : Prop :=
  (∀ c ∈ text, c.toNat < 128) ∧ text.map Char.toLower = lower

def Form.Valid : Form → Prop
  | scp => True
  | bare => True
  | url scheme port => (∃ known ∈ schemes, SameLetters scheme known.toList)
      ∧ ∀ digits ∈ port, digits ≠ [] ∧ ∀ c ∈ digits, c.isDigit = true

/-- A user's name; in an URL a password may follow it. -/
def ValidUser (form : Form) (user : List Char) : Prop :=
  (∀ c ∈ user, c ≠ '/' ∧ c ≠ '@' ∧ tables.chars.isWhitespace c = false)
    ∧ (form = .scp ∨ form = .bare → ':' ∉ user)

structure Spelling where
  form : Form
  user : Option (List Char) := none
  git : Option (List Char) := none
  slashes : Nat := 0
  form_valid : form.Valid
  user_valid : ∀ name ∈ user, ValidUser tables form name
  git_valid : ∀ suffix ∈ git, SameLetters suffix ".git".toList

variable {tables}

namespace Spelling

def userText (spelling : Spelling tables) : List Char :=
  spelling.user.elim [] fun name => name ++ ['@']

/-- What follows the path. -/
def ending (spelling : Spelling tables) : List Char :=
  spelling.git.getD [] ++ List.replicate spelling.slashes '/'

def text (spelling : Spelling tables) (remote : Remote tables) : List Char :=
  match spelling.form with
  | .scp =>
    spelling.userText ++ remote.host ++ ':' :: (remote.path ++ spelling.ending)
  | .bare =>
    spelling.userText ++ remote.host ++ '/' :: (remote.path ++ spelling.ending)
  | .url scheme port =>
    scheme ++ (spelling.userText ++ remote.host ++ port.elim [] (':' :: ·)
      ++ '/' :: (remote.path ++ spelling.ending))

end Spelling

def Remote.canonical (remote : Remote tables) : List Char :=
  tables.casing.toLowercase remote.host ++ '/' :: tables.casing.toLowercase remote.path

/-! ### The ends -/

variable {s : List Char} {c : Char} {front : List Char} {port : Option (List Char)}

theorem dropWhile_of_head {p : Char → Bool} (h : ∀ c ∈ s.head?, p c = false) :
    s.dropWhile p = s := by
  cases s with
  | nil => rfl
  | cons c s =>
    have hHead : p c = false := h c rfl
    rw [dropWhile_cons, hHead]
    rfl

theorem trim_of_ends (hHead : ∀ c ∈ s.head?, tables.chars.isWhitespace c = false)
    (hLast : ∀ c ∈ s.getLast?, tables.chars.isWhitespace c = false) : tables.chars.trim s = s := by
  unfold CharClass.trim
  rw [dropWhile_of_head hHead, dropWhile_of_head (by rwa [head?_reverse]), reverse_reverse]

theorem dropSlashes_replicate {body : List Char} (hLast : ∀ c ∈ body.getLast?, c ≠ '/')
    (slashes : Nat) : dropSlashes (body ++ List.replicate slashes '/') = body := by
  have hSlashes : ∀ c ∈ List.replicate slashes '/', decide (c = '/') = true := by
    intro c hc
    rw [eq_of_mem_replicate hc]
    rfl
  have hBody : ∀ c ∈ body.reverse.head?, decide (c = '/') = false := by
    intro c hc
    rw [head?_reverse] at hc
    exact decide_eq_false (hLast c hc)
  unfold dropSlashes
  rw [reverse_append, reverse_replicate, dropWhile_append_of_pos hSlashes,
    dropWhile_of_head hBody, reverse_reverse]

/-- With a `.git` in any case or none, a text that has no other one is what is left. -/
theorem dropGit_append {body : List Char}
    (hBody : ¬".git".toList <:+ tables.casing.toLowercase body) {git : Option (List Char)}
    (hGit : ∀ suffix ∈ git, SameLetters suffix ".git".toList) :
    dropGit tables (body ++ git.getD []) = body := by
  cases git with
  | none =>
    unfold dropGit
    rw [getD_none, append_nil, if_neg hBody]
  | some suffix =>
    obtain ⟨hAscii, hLetters⟩ := hGit suffix rfl
    obtain ⟨front, hFront⟩ := tables.casing.toLowercase_append_ascii body hAscii
    have hLength : suffix.length = 4 := by
      rw [← length_map (f := Char.toLower), hLetters]
      rfl
    unfold dropGit
    rw [getD_some, hFront, hLetters, if_pos (suffix_append _ _), length_append,
      hLength, Nat.add_sub_cancel, take_left]

/-! ### The parts of an origin -/

theorem slash_mem_before (h : c ∉ front ++ ['/'])
    {before behind : List Char} (hCut : cutAt c (front ++ '/' :: s) = some (before, behind)) :
    '/' ∈ before := by
  rw [append_cons, cutAt_prepend h, map_eq_some_iff] at hCut
  obtain ⟨parts, -, hParts⟩ := hCut
  rw [← (Prod.mk.inj hParts).1]
  simp

theorem dropUser_user {user : List Char} (h : ∀ c ∈ user, c ≠ '/' ∧ c ≠ '@') (s : List Char) :
    dropUser (user ++ '@' :: s) = s := by
  have hAt : '@' ∉ user := fun hMem => (h '@' hMem).2 rfl
  have hSlash : '/' ∉ user := fun hMem => (h '/' hMem).1 rfl
  unfold dropUser
  rw [cutAt_append hAt]
  simp [hSlash]

theorem dropUser_none (h : '@' ∉ front) (s : List Char) :
    dropUser (front ++ '/' :: s) = front ++ '/' :: s := by
  unfold dropUser
  split
  · rename_i before behind hCut
    have hSlash : '/' ∈ before := slash_mem_before (by simp [h]) hCut
    rw [if_pos (contains_iff_mem.mpr hSlash)]
  · rfl

theorem splitScp_colon (hColon : ':' ∉ front) (hSlash : '/' ∉ front)
    (s : List Char) : splitScp (front ++ ':' :: s) = front ++ '/' :: s := by
  unfold splitScp
  rw [cutAt_append hColon]
  simp [hSlash]

theorem splitScp_none (h : ':' ∉ front) (s : List Char) :
    splitScp (front ++ '/' :: s) = front ++ '/' :: s := by
  unfold splitScp
  split
  · rename_i before behind hCut
    have hSlash : '/' ∈ before := slash_mem_before (by simp [h]) hCut
    rw [if_pos (contains_iff_mem.mpr hSlash)]
  · rfl

theorem dropPort_port {host : List Char} (hHost : host ≠ []) (hPlain : Plain tables host)
    (hPort : ∀ digits ∈ port, '/' ∉ digits) (s : List Char) :
    dropPort (host ++ port.elim [] (':' :: ·) ++ '/' :: s) = host ++ '/' :: s := by
  have hSlash : '/' ∉ host := fun hMem => (hPlain '/' hMem).1 rfl
  have hColon : ':' ∉ host := fun hMem => (hPlain ':' hMem).2.1 rfl
  cases port with
  | none =>
    unfold dropPort
    rw [elim_none, append_nil, cutAt_append hSlash]
    simp [hHost, cutAt_none hColon]
  | some digits =>
    have hBoth : '/' ∉ host ++ ':' :: digits := by
      simp [hSlash, hPort digits rfl]
    unfold dropPort
    rw [elim_some, cutAt_append hBoth]
    simp [cutAt_append hColon]

/-! ### Schemes -/

/-- No scheme stands in front: what follows the first colon, if no slash is before it, begins
with no slash. -/
def SchemeFree (s : List Char) : Prop :=
  ∀ before behind, cutAt ':' s = some (before, behind) → '/' ∈ before ∨ behind.head? ≠ some '/'

theorem schemes_shape {scheme : String} (h : scheme ∈ schemes) :
    ∃ word, scheme.toList = word ++ [':', '/'] ++ ['/'] ∧ ':' ∉ word ∧ '/' ∉ word
      ∧ ∀ d ∈ word ++ [':', '/'] ++ ['/'], d.toNat < 128 ∧ d ≠ 'k' := by
  unfold schemes at h
  simp only [mem_cons, not_mem_nil, or_false] at h
  rcases h with rfl | rfl | rfl | rfl | rfl
  · exact ⟨"ssh".toList, rfl, by decide, by decide, by simp⟩
  · exact ⟨"git".toList, rfl, by decide, by decide, by simp⟩
  · exact ⟨"https".toList, rfl, by decide, by decide, by simp⟩
  · exact ⟨"http".toList, rfl, by decide, by decide, by simp⟩
  · exact ⟨"file".toList, rfl, by decide, by decide, by simp⟩

theorem SchemeFree.not_prefix (h : SchemeFree s) {scheme : String}
    (hScheme : scheme ∈ schemes) : ¬scheme.toList <+: tables.casing.toLowercase s := by
  intro hPrefix
  obtain ⟨word, hShape, hColon, hSlash, hAscii⟩ := schemes_shape hScheme
  rw [hShape] at hPrefix
  obtain ⟨first, rest, hText, hFirst⟩ := tables.casing.prefix_toLowercase hAscii hPrefix
  rw [append_assoc, map_eq_append_iff] at hFirst
  obtain ⟨front, last, hFront, hWord, hLast⟩ := hFirst
  have hMarks : last = [':', '/', '/'] := by
    simp only [cons_append, nil_append, map_eq_cons_iff, map_eq_nil_iff] at hLast
    obtain ⟨a, _, rfl, ha, b, _, rfl, hb, c, _, rfl, hc, rfl⟩ := hLast
    rw [eq_of_toLower (by decide) ha, eq_of_toLower (by decide) hb, eq_of_toLower (by decide) hc]
  have hNoColon : ':' ∉ front := by
    intro hMem
    apply hColon
    rw [← hWord]
    exact mem_map_of_mem (f := Char.toLower) hMem
  have hNoSlash : '/' ∉ front := by
    intro hMem
    apply hSlash
    rw [← hWord]
    exact mem_map_of_mem (f := Char.toLower) hMem
  have hCut : cutAt ':' s = some (front, '/' :: '/' :: rest) := by
    rw [hText, hFront, hMarks, append_assoc]
    exact cutAt_append hNoColon _
  rcases h _ _ hCut with hMem | hHead
  · exact hNoSlash hMem
  · exact hHead rfl

theorem stripScheme_skip (hadScheme : Bool) {known : List String}
    (h : ∀ scheme ∈ known, ¬scheme.toList <+: tables.casing.toLowercase s) :
    known.foldl (stripScheme tables) (s, hadScheme) = (s, hadScheme) := by
  induction known with
  | nil => rfl
  | cons scheme known ih =>
    have hHere : stripScheme tables (s, hadScheme) scheme = (s, hadScheme) := by
      unfold stripScheme
      rw [if_neg (h scheme mem_cons_self)]
    rw [foldl_cons, hHere]
    exact ih fun other hOther => h other (mem_cons_of_mem _ hOther)

theorem schemes_apart : ∀ scheme ∈ schemes, ∀ other ∈ schemes,
    other.toList <+: scheme.toList → other = scheme := by
  decide

theorem schemes_visible : ∀ scheme ∈ schemes, ∀ d ∈ scheme.toList,
    33 ≤ d.toNat ∧ d.toNat < 127 := by
  simp [schemes]

theorem stripScheme_scheme {scheme s : List Char} (h : SchemeFree s) {known : String}
    (hKnown : known ∈ schemes) (hScheme : SameLetters scheme known.toList) :
    schemes.foldl (stripScheme tables) (scheme ++ s, false) = (s, true) := by
  obtain ⟨hAscii, hLetters⟩ := hScheme
  have hPrefix := tables.casing.toLowercase_ascii_append hAscii s
  rw [hLetters] at hPrefix
  have hLength : scheme.length = known.toList.length := by
    rw [← length_map (f := Char.toLower), hLetters]
  have hHere : stripScheme tables (scheme ++ s, false) known = (s, true) := by
    unfold stripScheme
    rw [if_pos hPrefix, ← hLength, drop_left]
  obtain ⟨before, behind, hAll, hBefore⟩ := eq_append_cons_of_mem hKnown
  have hMem : ∀ other, other ∈ before ∨ other ∈ behind → other ∈ schemes := by
    intro other hOther
    rw [hAll, mem_append, mem_cons]
    rcases hOther with hOther | hOther
    · exact .inl hOther
    · exact .inr (.inr hOther)
  have hOthers : ∀ other ∈ before, ¬other.toList <+: tables.casing.toLowercase (scheme ++ s) := by
    intro other hOther hOtherPrefix
    have hSame : other = known := by
      rcases prefix_or_prefix_of_prefix hOtherPrefix hPrefix with hShort | hLong
      · exact schemes_apart known hKnown other (hMem other (.inl hOther)) hShort
      · exact (schemes_apart other (hMem other (.inl hOther)) known hKnown hLong).symm
    rw [hSame] at hOther
    exact hBefore hOther
  rw [hAll, foldl_append, stripScheme_skip false hOthers, foldl_cons, hHere]
  exact stripScheme_skip true fun other hOther => h.not_prefix (hMem other (.inr hOther))

/-! ### Spellings -/

variable (remote : Remote tables) (spelling : Spelling tables)

/-- What a spelling comes to without its scheme and with its colon made a slash. -/
def rest (port : Option (List Char)) : List Char :=
  spelling.userText ++ (remote.host ++ port.elim [] (':' :: ·)
    ++ '/' :: (remote.path ++ spelling.ending))

theorem Remote.slash_notMem : '/' ∉ remote.host := fun h => (remote.host_plain '/' h).1 rfl

theorem Remote.colon_notMem : ':' ∉ remote.host := fun h => (remote.host_plain ':' h).2.1 rfl

theorem Remote.at_notMem : '@' ∉ remote.host := fun h => (remote.host_plain '@' h).2.2.1 rfl

theorem isDigit_plain {digits : List Char} (h : ∀ c ∈ digits, c.isDigit = true)
    (hc : c.isDigit = false) : c ∉ digits := by
  intro hMem
  rw [h c hMem] at hc
  cases hc

theorem dropUser_rest (hPort : ∀ digits ∈ port, ∀ c ∈ digits, c.isDigit = true) :
    dropUser (rest remote spelling port)
      = remote.host ++ port.elim [] (':' :: ·) ++ '/' :: (remote.path ++ spelling.ending) := by
  unfold rest Spelling.userText
  cases hUser : spelling.user with
  | none =>
    rw [elim_none, nil_append]
    apply dropUser_none
    cases port with
    | none => simpa using remote.at_notMem
    | some digits =>
      have hDigits : '@' ∉ digits := isDigit_plain (hPort digits rfl) (by decide)
      simp [remote.at_notMem, hDigits]
  | some name =>
    have hName := (spelling.user_valid name hUser).1
    rw [elim_some, append_assoc]
    exact dropUser_user (fun c hc => ⟨(hName c hc).1, (hName c hc).2.1⟩) _

theorem suffix_behind_slash {suffix front back : List Char} (hSlash : '/' ∉ suffix)
    (h : suffix <:+ front ++ '/' :: back) : suffix <:+ back := by
  rcases suffix_or_suffix_of_suffix h (suffix_append front ('/' :: back)) with
    hShort | hLong
  · rcases suffix_cons_iff.mp hShort with rfl | hBack
    · exact absurd mem_cons_self hSlash
    · exact hBack
  · exact absurd (hLong.subset mem_cons_self) hSlash

theorem Remote.notGit :
    ¬".git".toList <:+ tables.casing.toLowercase (remote.host ++ '/' :: remote.path) := by
  rw [tables.casing.toLowercase_slash]
  intro h
  exact remote.path_git (suffix_behind_slash (by decide) h)

theorem getLast?_behind {front back : List Char} (h : back ≠ []) :
    (front ++ '/' :: back).getLast? = back.getLast? := by
  rw [append_cons, getLast?_append_of_ne_nil _ h]

theorem SameLetters.visible {text lower : List Char} (h : SameLetters text lower)
    (hLower : ∀ d ∈ lower, 33 ≤ d.toNat ∧ d.toNat < 127) :
    ∀ c ∈ text, tables.chars.isWhitespace c = false := by
  intro c hc
  have hMem : c.toLower ∈ lower := by
    rw [← h.2]
    exact mem_map_of_mem (f := Char.toLower) hc
  rcases toLower_cases c with hSame | ⟨hLow, hHigh⟩
  · rw [hSame] at hMem
    exact tables.visible c (hLower c hMem).1 (hLower c hMem).2
  · exact tables.visible c (by omega) (by omega)

theorem last_path_git : ∀ c ∈ (remote.path ++ spelling.git.getD []).getLast?,
    c ≠ '/' ∧ tables.chars.isWhitespace c = false := by
  intro c hc
  cases hGit : spelling.git with
  | none =>
    rw [hGit, getD_none, append_nil] at hc
    exact remote.path_last c hc
  | some suffix =>
    have hLetters := spelling.git_valid suffix hGit
    have hSome : suffix ≠ [] := by
      rintro rfl
      cases hLetters.2
    rw [hGit, getD_some, getLast?_append_of_ne_nil _ hSome] at hc
    have hMem := mem_of_getLast? hc
    refine ⟨?_, hLetters.visible (by simp) c hMem⟩
    rintro rfl
    have hSlash := mem_map_of_mem (f := Char.toLower) hMem
    rw [hLetters.2] at hSlash
    exact absurd hSlash (by decide)

theorem path_git_ne : remote.path ++ spelling.git.getD [] ≠ [] := by
  simp [remote.path_ne]

theorem normalize_rest (hPort : ∀ digits ∈ port, ∀ c ∈ digits, c.isDigit = true) :
    tables.casing.toLowercase
        (dropGit tables (dropSlashes (dropPort (dropUser (rest remote spelling port)))))
      = remote.canonical := by
  have hSlash : ∀ digits ∈ port, '/' ∉ digits := by
    intro digits hDigits
    exact isDigit_plain (hPort digits hDigits) (by decide)
  have hEnding : remote.host ++ '/' :: (remote.path ++ spelling.ending)
      = remote.host ++ '/' :: (remote.path ++ spelling.git.getD [])
        ++ List.replicate spelling.slashes '/' := by
    simp [Spelling.ending]
  have hLast : ∀ c ∈ (remote.host ++ '/' :: (remote.path ++ spelling.git.getD [])).getLast?,
      c ≠ '/' := by
    intro c hc
    rw [getLast?_behind (path_git_ne remote spelling)] at hc
    exact (last_path_git remote spelling c hc).1
  have hGit : remote.host ++ '/' :: (remote.path ++ spelling.git.getD [])
      = remote.host ++ '/' :: remote.path ++ spelling.git.getD [] := by
    simp
  rw [dropUser_rest remote spelling hPort, dropPort_port remote.host_ne remote.host_plain hSlash,
    hEnding, dropSlashes_replicate hLast, hGit,
    dropGit_append remote.notGit spelling.git_valid, tables.casing.toLowercase_slash]
  rfl

theorem last_visible : ∀ c ∈ (remote.path ++ spelling.ending).getLast?,
    tables.chars.isWhitespace c = false := by
  intro c hc
  unfold Spelling.ending at hc
  rw [← append_assoc] at hc
  by_cases hSlashes : spelling.slashes = 0
  · rw [hSlashes, replicate_zero, append_nil] at hc
    exact (last_path_git remote spelling c hc).2
  have hSome : List.replicate spelling.slashes '/' ≠ [] := by simp [hSlashes]
  rw [getLast?_append_of_ne_nil _ hSome] at hc
  rw [eq_of_mem_replicate (mem_of_getLast? hc)]
  exact tables.visible '/' (by decide) (by decide)

theorem head_visible (s : List Char) : ∀ c ∈ (spelling.userText ++ (remote.host ++ s)).head?,
      tables.chars.isWhitespace c = false := by
  intro c hc
  unfold Spelling.userText at hc
  cases hUser : spelling.user with
  | none =>
    rw [hUser, elim_none, nil_append, head?_append_of_ne_nil _ remote.host_ne] at hc
    exact (remote.host_plain c (mem_of_head? hc)).2.2.2
  | some name =>
    have hSome : name ++ ['@'] ≠ [] := by simp
    rw [hUser, elim_some, head?_append_of_ne_nil _ hSome] at hc
    rcases mem_append.mp (mem_of_head? hc) with hName | hAt
    · exact ((spelling.user_valid name hUser).1 c hName).2.2
    · rw [mem_singleton.mp hAt]
      exact tables.visible '@' (by decide) (by decide)

theorem slash_notMem_user : '/' ∉ spelling.userText := by
  unfold Spelling.userText
  cases hUser : spelling.user with
  | none => simp
  | some name =>
    have hName : '/' ∉ name := fun h => ((spelling.user_valid name hUser).1 '/' h).1 rfl
    simp [hName]

theorem colon_notMem_user (hForm : spelling.form = .scp ∨ spelling.form = .bare) :
    ':' ∉ spelling.userText := by
  unfold Spelling.userText
  cases hUser : spelling.user with
  | none => simp
  | some name =>
    have hName : ':' ∉ name := (spelling.user_valid name hUser).2 hForm
    simp [hName]

theorem schemeFree_front (hSlash : '/' ∉ front)
    (hLast : ∀ c ∈ front.getLast?, c ≠ ':') (s : List Char) : SchemeFree (front ++ '/' :: s) := by
  intro before behind hCut
  rcases cutAt_cases ':' front with ⟨-, hColon⟩ | ⟨first, last, -, hFront, hFirst⟩
  · exact .inl (slash_mem_before (by simp [hColon]) hCut)
  rw [hFront, append_assoc, cons_append, cutAt_append hFirst, Option.some.injEq,
    Prod.mk.injEq] at hCut
  right
  rw [← hCut.2]
  cases last with
  | nil =>
    rw [hFront, getLast?_concat] at hLast
    exact absurd rfl (hLast ':' rfl)
  | cons c last =>
    intro hHead
    apply hSlash
    rw [hFront, ← Option.some.inj hHead]
    simp

theorem schemeFree_rest (hPort : ∀ digits ∈ port, digits ≠ [] ∧ ∀ c ∈ digits, c.isDigit = true) :
    SchemeFree (rest remote spelling port) := by
  have hSome : remote.host ++ port.elim [] (':' :: ·) ≠ [] := by simp [remote.host_ne]
  have hSlash : '/' ∉ spelling.userText ++ (remote.host ++ port.elim [] (':' :: ·)) := by
    cases port with
    | none => simp [slash_notMem_user, remote.slash_notMem]
    | some digits =>
      have hDigits : '/' ∉ digits := isDigit_plain (hPort digits rfl).2 (by decide)
      simp [slash_notMem_user, remote.slash_notMem, hDigits]
  have hLast : ∀ c ∈ (spelling.userText ++ (remote.host ++ port.elim [] (':' :: ·))).getLast?,
      c ≠ ':' := by
    intro c hc
    rw [getLast?_append_of_ne_nil _ hSome] at hc
    cases port with
    | none =>
      rw [elim_none, append_nil] at hc
      exact (remote.host_plain c (mem_of_getLast? hc)).2.1
    | some digits =>
      obtain ⟨hDigits, hAll⟩ := hPort digits rfl
      rw [elim_some, append_cons, getLast?_append_of_ne_nil _ hDigits] at hc
      rintro rfl
      exact isDigit_plain hAll (by decide) (mem_of_getLast? hc)
  unfold rest
  rw [← append_assoc]
  exact schemeFree_front hSlash hLast _

theorem schemeFree_scp (hForm : spelling.form = .scp) :
    SchemeFree (spelling.userText ++ remote.host ++ ':' :: (remote.path ++ spelling.ending)) := by
  intro before behind hCut
  have hColon : ':' ∉ spelling.userText ++ remote.host := by
    simp [colon_notMem_user spelling (.inl hForm), remote.colon_notMem]
  rw [cutAt_append hColon, Option.some.injEq, Prod.mk.injEq] at hCut
  right
  rw [← hCut.2, head?_append_of_ne_nil _ remote.path_ne]
  exact remote.path_head

theorem trim_spelling (front : List Char) (hFront : ∀ d ∈ front.head?,
      tables.chars.isWhitespace d = false) (hSome : front ≠ []) :
    tables.chars.trim (front ++ c :: (remote.path ++ spelling.ending))
      = front ++ c :: (remote.path ++ spelling.ending) := by
  apply trim_of_ends
  · rwa [head?_append_of_ne_nil _ hSome]
  · rw [append_cons, getLast?_append_of_ne_nil _ (by simp [remote.path_ne])]
    exact last_visible remote spelling

theorem normalize_of {url s : List Char} {hadScheme : Bool} (hTrim : tables.chars.trim url = url)
    (hSchemes : schemes.foldl (stripScheme tables) (url, false) = (s, hadScheme))
    (hScp : (if hadScheme then s else splitScp s) = rest remote spelling port)
    (hPort : ∀ digits ∈ port, ∀ c ∈ digits, c.isDigit = true) :
    normalizeGitUrl tables url = remote.canonical := by
  unfold normalizeGitUrl
  rw [hTrim, hSchemes]
  simp only [hScp]
  exact normalize_rest remote spelling hPort

theorem no_port : ∀ digits ∈ (none : Option (List Char)), ∀ c ∈ digits, c.isDigit = true := by
  simp

theorem schemes_skip (h : SchemeFree s) :
    schemes.foldl (stripScheme tables) (s, false) = (s, false) :=
  stripScheme_skip false fun _ hScheme => h.not_prefix hScheme

theorem rest_none : rest remote spelling none
    = spelling.userText ++ remote.host ++ '/' :: (remote.path ++ spelling.ending) := by
  simp [rest]

theorem head_visible_host : ∀ c ∈ (spelling.userText ++ remote.host).head?,
    tables.chars.isWhitespace c = false := by
  have hHead := head_visible remote spelling []
  rwa [append_nil] at hHead

theorem normalize_scp (hForm : spelling.form = .scp) :
    normalizeGitUrl tables (spelling.text remote) = remote.canonical := by
  have hText : spelling.text remote
      = spelling.userText ++ remote.host ++ ':' :: (remote.path ++ spelling.ending) := by
    unfold Spelling.text
    rw [hForm]
  have hColon : ':' ∉ spelling.userText ++ remote.host := by
    simp [colon_notMem_user spelling (.inl hForm), remote.colon_notMem]
  have hSlash : '/' ∉ spelling.userText ++ remote.host := by
    simp [slash_notMem_user, remote.slash_notMem]
  rw [hText]
  refine normalize_of remote spelling
    (trim_spelling remote spelling _ (head_visible_host remote spelling)
      (by simp [remote.host_ne])) (schemes_skip (schemeFree_scp remote spelling hForm)) ?_ no_port
  rw [if_neg Bool.false_ne_true, splitScp_colon hColon hSlash, rest_none]

theorem normalize_bare (hForm : spelling.form = .bare) :
    normalizeGitUrl tables (spelling.text remote) = remote.canonical := by
  have hText : spelling.text remote = rest remote spelling none := by
    unfold Spelling.text
    rw [hForm, rest_none]
  have hColon : ':' ∉ spelling.userText ++ remote.host := by
    simp [colon_notMem_user spelling (.inr hForm), remote.colon_notMem]
  have hFree : SchemeFree (rest remote spelling none) := schemeFree_rest remote spelling (by simp)
  rw [hText]
  refine normalize_of remote spelling ?_ (schemes_skip hFree) ?_ no_port
  · rw [rest_none]
    exact trim_spelling remote spelling _ (head_visible_host remote spelling)
      (by simp [remote.host_ne])
  · rw [if_neg Bool.false_ne_true, rest_none]
    exact splitScp_none hColon _

theorem normalize_url {scheme : List Char} (hForm : spelling.form = .url scheme port) :
    normalizeGitUrl tables (spelling.text remote) = remote.canonical := by
  have hValid := spelling.form_valid
  rw [hForm] at hValid
  obtain ⟨⟨known, hKnown, hScheme⟩, hPort⟩ := hValid
  have hText : spelling.text remote = scheme ++ rest remote spelling port := by
    unfold Spelling.text rest
    rw [hForm]
    simp
  have hSome : scheme ≠ [] := by
    rintro rfl
    obtain ⟨word, hShape, -⟩ := schemes_shape hKnown
    have hLength := congrArg List.length hScheme.2
    rw [hShape] at hLength
    simp at hLength
  have hVisible : ∀ c ∈ scheme, tables.chars.isWhitespace c = false :=
    hScheme.visible (schemes_visible known hKnown)
  have hTrim : tables.chars.trim (scheme ++ rest remote spelling port)
      = scheme ++ rest remote spelling port := by
    have hFront : scheme ++ rest remote spelling port
        = scheme ++ (spelling.userText ++ (remote.host ++ port.elim [] (':' :: ·)))
          ++ '/' :: (remote.path ++ spelling.ending) := by
      simp [rest]
    rw [hFront]
    refine trim_spelling remote spelling _ ?_ (by simp [hSome])
    intro c hc
    rw [head?_append_of_ne_nil _ hSome] at hc
    exact hVisible c (mem_of_head? hc)
  have hFree := schemeFree_rest remote spelling hPort
  rw [hText]
  exact normalize_of remote spelling hTrim (stripScheme_scheme hFree hKnown hScheme) rfl
    fun digits hDigits => (hPort digits hDigits).2

theorem normalize_spelling : normalizeGitUrl tables (spelling.text remote) = remote.canonical := by
  cases hForm : spelling.form with
  | scp => exact normalize_scp remote spelling hForm
  | bare => exact normalize_bare remote spelling hForm
  | url scheme port => exact normalize_url remote spelling hForm

/-! ### The normal form -/

theorem lower_visible {before behind : List Char} {c d : Char}
    (hc : tables.chars.isWhitespace c = false) (h : d ∈ tables.casing.lowerAt before c behind) :
    tables.chars.isWhitespace d = false := by
  rcases tables.casing.mem_lowerAt h with hLower | rfl | rfl
  · exact tables.lowerVisible c hc d hLower
  · exact tables.sigmaVisible.1
  · exact tables.sigmaVisible.2

theorem lowercase_visible {text : List Char} (h : ∀ c ∈ text, tables.chars.isWhitespace c = false) :
    ∀ d ∈ tables.casing.toLowercase text, tables.chars.isWhitespace d = false := by
  intro d hd
  rcases tables.casing.mem_lowerFrom hd with ⟨c, hc, hLower⟩ | rfl | rfl
  · exact tables.lowerVisible c (h c hc) d hLower
  · exact tables.sigmaVisible.1
  · exact tables.sigmaVisible.2

theorem lowered_head : (tables.casing.toLowercase remote.path).head? ≠ some '/' := by
  intro hHead
  cases hPath : remote.path with
  | nil => exact remote.path_ne hPath
  | cons c path =>
    obtain ⟨rest, hRest⟩ := tables.casing.toLowercase_cons c path
    rw [hPath, hRest, head?_append_of_ne_nil _ (tables.casing.lowerAt_ne_nil _ _ _)] at hHead
    have hSlash := tables.casing.eq_of_mem_lowerAt (by decide) (by decide) (mem_of_head? hHead)
    apply remote.path_head
    rw [hPath, hSlash]
    rfl

theorem lowered_last : ∀ d ∈ (tables.casing.toLowercase remote.path).getLast?,
    d ≠ '/' ∧ tables.chars.isWhitespace d = false := by
  intro d hd
  obtain ⟨front, c, hPath⟩ : ∃ front c, remote.path = front ++ [c] :=
    ⟨_, _, (dropLast_concat_getLast remote.path_ne).symm⟩
  obtain ⟨first, before, hLower⟩ := tables.casing.toLowercase_concat front c
  rw [hPath, hLower, getLast?_append_of_ne_nil _ (tables.casing.lowerAt_ne_nil _ _ _)] at hd
  have hMem := mem_of_getLast? hd
  obtain ⟨hSlash, hVisible⟩ := remote.path_last c (by rw [hPath, getLast?_concat]; rfl)
  refine ⟨?_, lower_visible hVisible hMem⟩
  rintro rfl
  exact hSlash (tables.casing.eq_of_mem_lowerAt (by decide) (by decide) hMem)

def Remote.lowered : Remote tables where
  host := tables.casing.toLowercase remote.host
  path := tables.casing.toLowercase remote.path
  host_ne := tables.casing.toLowercase_ne_nil remote.host_ne
  host_plain := by
    intro c hc
    have hOther : ∀ d, d.toNat < 128 → d.isAlpha = false → d ∉ remote.host → c ≠ d := by
      rintro d hAscii hLetter hNot rfl
      exact tables.casing.not_mem_toLowercase hAscii hLetter hNot hc
    refine ⟨hOther '/' (by decide) (by decide) remote.slash_notMem, hOther ':' (by decide) (by
      decide) remote.colon_notMem, hOther '@' (by decide) (by decide) remote.at_notMem, ?_⟩
    exact lowercase_visible (fun d hd => (remote.host_plain d hd).2.2.2) c hc
  path_ne := tables.casing.toLowercase_ne_nil remote.path_ne
  path_head := lowered_head remote
  path_last := lowered_last remote
  path_git := by
    rw [tables.casing.toLowercase_toLowercase]
    exact remote.path_git

/-- A spelling with nothing added. -/
def Spelling.plain : Spelling tables where
  form := .bare
  form_valid := trivial
  user_valid := by simp
  git_valid := by simp

theorem plain_lowered : Spelling.plain.text remote.lowered = remote.canonical := by
  simp [Spelling.plain, Spelling.text, Spelling.userText, Spelling.ending, Remote.lowered,
    Remote.canonical]

theorem canonical_lowered : remote.lowered.canonical = remote.canonical := by
  unfold Remote.canonical Remote.lowered
  simp only [tables.casing.toLowercase_toLowercase]

theorem canonical_inj (other : Remote tables) : remote.canonical = other.canonical
      ↔ tables.casing.toLowercase remote.host = tables.casing.toLowercase other.host
        ∧ tables.casing.toLowercase remote.path = tables.casing.toLowercase other.path := by
  have hCut : ∀ remote : Remote tables, cutAt '/' remote.canonical
      = some (tables.casing.toLowercase remote.host, tables.casing.toLowercase remote.path) := by
    intro remote
    exact cutAt_append (remote.lowered.slash_notMem) _
  constructor
  · intro h
    have hBoth := congrArg (cutAt '/') h
    rwa [hCut, hCut, Option.some.injEq, Prod.mk.injEq] at hBoth
  · rintro ⟨hHost, hPath⟩
    unfold Remote.canonical
    rw [hHost, hPath]

/-- All spellings of a remote have one normal form, which is its own; and two remotes have the
same one exactly if they are the same but for case. -/
theorem normalizeGitUrl_canonical (tables : Tables) (remote other : Remote tables)
    (spelling spelling' : Spelling tables) : normalizeGitUrl tables (spelling.text remote)
        = tables.casing.toLowercase remote.host ++ '/' :: tables.casing.toLowercase remote.path
      ∧ normalizeGitUrl tables (normalizeGitUrl tables (spelling.text remote))
        = normalizeGitUrl tables (spelling.text remote)
      ∧ (normalizeGitUrl tables (spelling.text remote)
          = normalizeGitUrl tables (spelling'.text other)
        ↔ tables.casing.toLowercase remote.host = tables.casing.toLowercase other.host
          ∧ tables.casing.toLowercase remote.path = tables.casing.toLowercase other.path) := by
  refine ⟨normalize_spelling remote spelling, ?_, ?_⟩
  · rw [normalize_spelling, ← plain_lowered, normalize_spelling, canonical_lowered, plain_lowered]
  · rw [normalize_spelling, normalize_spelling]
    exact canonical_inj remote other

/-! ### What is not kept apart -/

theorem isWhitespace_visible (hc : 33 ≤ c.toNat) : c.isWhitespace = false := by
  have hNot : ∀ d : Char, d.toNat < 33 → c ≠ d := by
    rintro d hd rfl
    omega
  simp [Char.isWhitespace, hNot]

def asciiLower (c : Char) : List Char := if c = 'Σ' then ['σ'] else [c.toLower]

theorem asciiLower_small (hc : c.toNat < 128) : asciiLower c = [c.toLower] := by
  have hSigma : c ≠ 'Σ' := by
    rintro rfl
    exact absurd hc (by decide)
  unfold asciiLower
  rw [if_neg hSigma]

theorem asciiLower_large {c d : Char} (hc : 128 ≤ c.toNat) (hd : d ∈ asciiLower c) :
    128 ≤ d.toNat := by
  unfold asciiLower at hd
  split at hd
  · rw [mem_singleton.mp hd]
    decide
  rw [mem_singleton.mp hd]
  rcases toLower_cases c with hSame | ⟨-, hHigh, -⟩
  · rwa [hSame]
  · omega

theorem asciiLower_stable {c d : Char} (hd : d ∈ asciiLower c) : asciiLower d = [d] ∧ d ≠ 'Σ' := by
  unfold asciiLower at hd
  split at hd
  · rw [mem_singleton.mp hd]
    decide
  rename_i hSigma
  rw [mem_singleton.mp hd]
  rcases toLower_cases c with hSame | ⟨hLow, hHigh, hVal⟩
  · rw [hSame]
    unfold asciiLower
    rw [if_neg hSigma, hSame]
    exact ⟨rfl, hSigma⟩
  have hOther : c.toLower ≠ 'Σ' := by
    intro h
    rw [h] at hVal
    exact absurd hVal (by simp; omega)
  unfold asciiLower
  rw [if_neg hOther]
  rcases toLower_cases c.toLower with hSame | ⟨-, hSmall, -⟩
  · rw [hSame]
    exact ⟨rfl, hOther⟩
  · omega

theorem asciiLower_visible {c d : Char} (hc : c.isWhitespace = false) (hd : d ∈ asciiLower c) :
    d.isWhitespace = false := by
  unfold asciiLower at hd
  split at hd
  · rw [mem_singleton.mp hd]
    decide
  rw [mem_singleton.mp hd]
  rcases toLower_cases c with hSame | ⟨hLow, -, hVal⟩
  · rwa [hSame]
  · exact isWhitespace_visible (by omega)

/-- Tables that are right on ASCII and on the Greek sigma. -/
def asciiTables : Tables where
  chars := {
    isWhitespace := Char.isWhitespace
    isAlphanumeric := Char.isAlphanum
    isControl := fun c => c.toNat < 32 }
  casing := {
    lower := asciiLower
    cased := fun c => c.isAlpha || c = 'σ' || c = 'Σ'
    ignorable := fun c => c = '.' || c = ':'
    ascii := fun _ hc => asciiLower_small hc
    other := by
      intro c hc
      refine .inr ⟨?_, fun d hd hSmall => absurd (asciiLower_large hc hd) (Nat.not_le.mpr hSmall)⟩
      cases hLower : asciiLower c with
      | nil =>
        unfold asciiLower at hLower
        split at hLower <;> cases hLower
      | cons d rest =>
        have hMem : d ∈ asciiLower c := by
          rw [hLower]
          exact mem_cons_self
        exact ⟨d, mem_cons_self, asciiLower_large hc hMem⟩
    stable := fun _ _ hd => asciiLower_stable hd
    sigma := by decide
    slash := by decide }
  visible := fun _ hc _ => isWhitespace_visible hc
  lowerVisible := fun _ hc _ hd => asciiLower_visible hc hd
  sigmaVisible := by decide

/-- The letters of a path are not kept apart by case, and of two suffixes each round takes one. -/
theorem path_case_lost : normalizeGitUrl asciiTables "https://github.com/Org/X".toList
        = normalizeGitUrl asciiTables "https://github.com/org/x".toList
      ∧ normalizeGitUrl asciiTables
          (normalizeGitUrl asciiTables "https://github.com/org/x.git.git".toList)
        ≠ normalizeGitUrl asciiTables "https://github.com/org/x.git.git".toList := by
  decide +kernel

end GitUrl

end Diri
