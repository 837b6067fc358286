import JobQueue.Config.ConnectionUrl
import Mathlib.Data.List.TakeWhile

/-! # The connection URL in its parts

The URL by which a server is reached is taken apart at the first `://`, at the first slash behind it and at
the last `@` in front of that. A password is put in as it stands, so a slash in it moves the end of the server
into the password. Without such a slash the URL has just the parts it was made of, and making a connection
URL of it again changes nothing; with such a slash the password is put in once more, unless an `@` stands in
front of the slash and is taken for the end of a login.
-/

namespace JobQueue

namespace Url

/-! ## Taking apart -/

theorem splitScheme?_eq {text scheme rest : List Char} (found : splitScheme? text = some (scheme, rest)) :
    text = scheme ++ ':' :: '/' :: '/' :: rest := by
  fun_induction splitScheme? text generalizing scheme rest with
  | case1 =>
    cases found
    rfl
  | case2 c tail _ ih =>
    obtain ⟨⟨front, behind⟩, inner, equal⟩ := Option.map_eq_some_iff.mp found
    cases equal
    rw [ih inner, List.cons_append]
  | case3 => contradiction

theorem splitScheme?_cons {c : Char} {tail : List Char} (other : ∀ rest, c :: tail ≠ ':' :: '/' :: '/' :: rest) :
    splitScheme? (c :: tail) = (splitScheme? tail).map fun (scheme, rest) => (c :: scheme, rest) := by
  rw [splitScheme?]
  rintro rest rfl rfl
  exact other rest rfl

/-- What stands behind the first `://` has no say in where it is found. -/
theorem splitScheme?_append {text scheme rest : List Char} (found : splitScheme? text = some (scheme, rest))
    (other : List Char) : splitScheme? (scheme ++ ':' :: '/' :: '/' :: other) = some (scheme, other) := by
  fun_induction splitScheme? text generalizing scheme rest with
  | case1 =>
    cases found
    rfl
  | case2 c tail differs ih =>
    obtain ⟨⟨front, behind⟩, inner, equal⟩ := Option.map_eq_some_iff.mp found
    cases equal
    have whole := splitScheme?_eq inner
    rw [List.cons_append, splitScheme?_cons, ih inner]
    · rfl
    -- an earlier `://` would stand within the text in front of this one, or share a character with it
    · intro behind same
      rw [List.cons.injEq] at same
      obtain ⟨rfl, same⟩ := same
      rcases front with _ | ⟨a, _ | ⟨b, front⟩⟩
      · cases same
      · cases same
      · rw [List.cons_append, List.cons_append, List.cons.injEq, List.cons.injEq] at same
        obtain ⟨rfl, rfl, -⟩ := same
        exact differs _ rfl whole
  | case3 => contradiction

theorem cut_of_clear {isMark : Char → Bool} {text : List Char} (clear : ∀ c ∈ text, isMark c = false) :
    cut isMark text = (text, none) := by
  have none : (text.dropWhile fun c => !isMark c) = [] :=
    List.dropWhile_eq_nil_iff.mpr fun c member => by rw [clear c member, Bool.not_false]
  rw [cut, none]

theorem cut_append {isMark : Char → Bool} {front : List Char} (clear : ∀ c ∈ front, isMark c = false)
    {mark : Char} (marks : isMark mark = true) (behind : List Char) :
    cut isMark (front ++ mark :: behind) = (front, some behind) := by
  have unmarked : ∀ c ∈ front, (!isMark c) = true := fun c member => by rw [clear c member, Bool.not_false]
  rw [cut, List.dropWhile_append_of_pos unmarked, List.takeWhile_append_of_pos unmarked]
  simp only [List.dropWhile_cons, List.takeWhile_cons, marks, Bool.not_true, Bool.false_eq_true, if_false,
    List.append_nil]

theorem cut_clear (isMark : Char → Bool) (text : List Char) : ∀ c ∈ (cut isMark text).1, isMark c = false := by
  have front : ∀ c ∈ text.takeWhile fun c => !isMark c, isMark c = false := fun c member => by
    simpa using List.all_eq_true.mp List.all_takeWhile c member
  unfold cut
  split
  · next none =>
    intro c member
    simpa using List.dropWhile_eq_nil_iff.mp none c member
  · exact front

/-- A character that stands nowhere in a text marks no place of it. -/
theorem unmarked {mark : Char} {text : List Char} (absent : mark ∉ text) :
    ∀ c ∈ text, decide (c = mark) = false := by
  intro c member
  rw [decide_eq_false_iff_not]
  rintro rfl
  exact absent member

/-- A URL in its parts: the scheme, the server with the login in front of it, and the path. -/
structure Parts where
  scheme : List Char
  server : List Char
  path : List Char
deriving DecidableEq

namespace Parts

/-- The parts of a URL. What begins with no scheme has the usual one. -/
def ofText (text : List Char) : Parts :=
  let (scheme, rest) := (splitScheme? text).getD ("redis".toList, text)
  let (server, tail?) := cut (· = '/') rest
  ⟨scheme, server, tail?.getD []⟩

/-- A slash and the path, if there is one. -/
def tail (parts : Parts) : List Char := if parts.path.isEmpty then [] else '/' :: parts.path

/-- The URL that is made of some parts. -/
def text (parts : Parts) : List Char := parts.scheme ++ ':' :: '/' :: '/' :: (parts.server ++ parts.tail)

/-- The server behind the login, which ends with the last `@`. -/
def host (parts : Parts) : List Char := (cutLast (· = '@') parts.server).2

theorem slash_not_mem_server (text : List Char) : '/' ∉ (ofText text).server := by
  intro member
  have clear := cut_clear (· = '/') _ '/' member
  simp at clear

theorem splitScheme?_scheme (text rest : List Char) :
    splitScheme? ((ofText text).scheme ++ ':' :: '/' :: '/' :: rest) = some ((ofText text).scheme, rest) := by
  cases found : splitScheme? text with
  | none =>
    have scheme : (ofText text).scheme = "redis".toList := by rw [ofText, found]; rfl
    rw [scheme]
    rfl
  | some parts =>
    have scheme : (ofText text).scheme = parts.1 := by rw [ofText, found]; rfl
    rw [scheme]
    exact splitScheme?_append found rest

variable {parts : Parts} (known : ∀ rest, splitScheme? (parts.scheme ++ ':' :: '/' :: '/' :: rest) =
  some (parts.scheme, rest))

include known

/-- What is made of parts is taken apart into them, if the server has no slash. -/
theorem ofText_text (clear : '/' ∉ parts.server) : ofText parts.text = parts := by
  obtain ⟨scheme, server, path⟩ := parts
  cases path with
  | nil => simp only [ofText, text, known, tail, List.isEmpty_nil, if_true, List.append_nil, Option.getD_some,
      cut_of_clear (unmarked clear), Option.getD_none]
  | cons c path => simp only [ofText, text, known, tail, List.isEmpty_cons, Bool.false_eq_true, if_false,
      Option.getD_some, cut_append (unmarked clear) (decide_eq_true rfl)]

/-- A slash in the server ends it; what stands behind the slash becomes part of the path. -/
theorem ofText_text_of_slash {front behind : List Char} (server : parts.server = front ++ '/' :: behind)
    (clear : '/' ∉ front) : ofText parts.text = ⟨parts.scheme, front, behind ++ parts.tail⟩ := by
  simp only [ofText, text, known, server, List.append_assoc, List.cons_append, Option.getD_some,
    cut_append (unmarked clear) (decide_eq_true rfl)]

end Parts

end Url

namespace ServerConfig

open Url (Parts)

/-! ## Folding in -/

/-- Parts of a URL with the password and the number of the database among them. -/
def fold (config : ServerConfig) (parts : Parts) : Parts :=
  { parts with server := config.authority parts.server, path := config.path parts.path }

/-- The parts of which the connection URL is made. -/
def folded (config : ServerConfig) : Parts := config.fold (.ofText config.url.toList)

/-- The same settings with the connection URL for their URL. -/
def refolded (config : ServerConfig) : ServerConfig := { config with url := config.connectionUrl }

/-- The password, unless the URL has a login. -/
def inserted? (config : ServerConfig) : Option (List Char) :=
  config.password.bind fun password =>
    if '@' ∈ (Parts.ofText config.url.toList).server then none else some password.toList

/-- A password with a slash is put in. -/
def Slashed (config : ServerConfig) : Prop := ∃ password, config.inserted? = some password ∧ '/' ∈ password

/-- A password is put in that has a slash and no `@` in front of it. -/
def Spills (config : ServerConfig) : Prop :=
  ∃ front behind, config.inserted? = some (front ++ '/' :: behind) ∧ '@' ∉ front

variable (config : ServerConfig)

theorem connectionUrl_eq : config.connectionUrl = String.ofList config.folded.text := by
  have split : config.connectionUrl = String.ofList (if config.folded.path.isEmpty then
      config.folded.scheme ++ "://".toList ++ config.folded.server else
      config.folded.scheme ++ "://".toList ++ config.folded.server ++ '/' :: config.folded.path) := rfl
  rw [split, Parts.text, Parts.tail]
  by_cases empty : config.folded.path.isEmpty = true
  · simp only [empty, if_true, List.append_nil, List.append_assoc]
    rfl
  · simp only [empty, Bool.false_eq_true, if_false, List.append_assoc]
    rfl

theorem authority_of_mem {server : List Char} (login : '@' ∈ server) : config.authority server = server := by
  unfold authority
  split
  · exact if_pos login
  · rfl

theorem path_of_ne_nil {path : List Char} (some : path ≠ []) : config.path path = path := by
  rw [ServerConfig.path, List.isEmpty_eq_false_iff.mpr some]
  rfl

theorem path_path (path : List Char) : config.path (config.path path) = config.path path := by
  by_cases numbered : (path.isEmpty && config.database != 0) = true
  · have written : config.path path = Text.integer config.database := if_pos numbered
    rw [written]
    refine config.path_of_ne_nil ?_
    have digits : Text.integer config.database = Nat.toDigits 10 config.database := rfl
    rw [digits]
    exact Nat.toDigits_ne_nil
  · have same : config.path path = path := if_neg numbered
    rw [same, same]

/-- The server with the login in front, whether that was in the URL or not. -/
theorem server_folded : config.folded.server =
    match config.inserted? with
    | some password => ':' :: (password ++ '@' :: (Parts.ofText config.url.toList).server)
    | none => (Parts.ofText config.url.toList).server := by
  unfold inserted?
  simp only [folded, fold, authority]
  cases config.password with
  | none => rfl
  | some password =>
    simp only [Option.bind_some]
    split <;> rfl

/-- The scheme of the connection URL is found in it again. -/
theorem splitScheme?_folded (rest : List Char) :
    Url.splitScheme? (config.folded.scheme ++ ':' :: '/' :: '/' :: rest) = some (config.folded.scheme, rest) :=
  Parts.splitScheme?_scheme config.url.toList rest

theorem slash_mem_server_folded : '/' ∈ config.folded.server ↔ config.Slashed := by
  have clear := Parts.slash_not_mem_server config.url.toList
  rw [server_folded, Slashed]
  cases config.inserted? with
  | none => simpa using clear
  | some password => simp [clear]

/-- Without a slash in a password that is put in, the connection URL has the parts it was made of. -/
theorem ofText_connectionUrl (plain : ¬ config.Slashed) :
    Parts.ofText config.connectionUrl.toList = config.folded := by
  rw [connectionUrl_eq, String.toList_ofList]
  exact Parts.ofText_text config.splitScheme?_folded fun slash => plain (config.slash_mem_server_folded.mp slash)

/-- With a slash in it, the server of the connection URL ends within the password. -/
theorem ofText_connectionUrl_of_slash {front behind : List Char}
    (inserted : config.inserted? = some (front ++ '/' :: behind)) (clear : '/' ∉ front) :
    Parts.ofText config.connectionUrl.toList = ⟨config.folded.scheme, ':' :: front,
      behind ++ '@' :: ((Parts.ofText config.url.toList).server ++ config.folded.tail)⟩ := by
  have server : config.folded.server =
      (':' :: front) ++ '/' :: (behind ++ '@' :: (Parts.ofText config.url.toList).server) := by
    rw [server_folded, inserted]
    simp only [List.append_assoc, List.cons_append]
  have first : '/' ∉ ':' :: front := by simpa using clear
  rw [connectionUrl_eq, String.toList_ofList, Parts.ofText_text_of_slash config.splitScheme?_folded server first,
    List.append_assoc, List.cons_append]

/-- What the settings fold into their own connection URL. -/
theorem connectionUrl_refolded : config.refolded.connectionUrl =
    String.ofList (config.fold (.ofText config.connectionUrl.toList)).text :=
  config.refolded.connectionUrl_eq

theorem authority_of_inserted? {password server : List Char} (inserted : config.inserted? = some password)
    (plain : '@' ∉ server) : config.authority server = ':' :: (password ++ '@' :: server) := by
  obtain ⟨given, some, put⟩ := Option.bind_eq_some_iff.mp inserted
  obtain ⟨-, same⟩ := Option.ite_none_left_eq_some.mp put
  obtain rfl := Option.some.inj same
  rw [authority, some]
  exact if_neg plain

/-- Where the server ends before the password does, the parts still make up the connection URL. -/
theorem text_spilled {front behind : List Char} (inserted : config.inserted? = some (front ++ '/' :: behind)) :
    (Parts.mk config.folded.scheme (':' :: front)
      (behind ++ '@' :: ((Parts.ofText config.url.toList).server ++ config.folded.tail))).text =
      config.folded.text := by
  rw [Parts.text, Parts.text, server_folded, inserted]
  simp [Parts.tail]

/-- A password that spills is put in again, which makes the URL longer. -/
theorem connectionUrl_refolded_ne {front behind : List Char}
    (inserted : config.inserted? = some (front ++ '/' :: behind)) (clear : '/' ∉ front) (plain : '@' ∉ front) :
    config.refolded.connectionUrl ≠ config.connectionUrl := by
  have outside : '@' ∉ ':' :: front := by simpa using plain
  have spilled := config.text_spilled inserted
  intro same
  rw [connectionUrl_refolded, config.ofText_connectionUrl_of_slash inserted clear, connectionUrl_eq,
    String.ofList_inj, ← spilled, fold, config.authority_of_inserted? inserted outside,
    config.path_of_ne_nil (by simp)] at same
  have longer := congrArg List.length same
  simp only [Parts.text, Parts.tail, List.length_append, List.length_cons] at longer
  omega

theorem connectionUrl_refolded_of_login {front behind : List Char}
    (inserted : config.inserted? = some (front ++ '/' :: behind)) (clear : '/' ∉ front) (login : '@' ∈ front) :
    config.refolded.connectionUrl = config.connectionUrl := by
  rw [connectionUrl_refolded, config.ofText_connectionUrl_of_slash inserted clear, connectionUrl_eq, fold,
    config.authority_of_mem (List.mem_cons_of_mem _ login), config.path_of_ne_nil (by simp)]
  exact congrArg String.ofList (config.text_spilled inserted)

theorem fold_folded : config.fold config.folded = config.folded := by
  have server : config.authority config.folded.server = config.folded.server := by
    cases inserted : config.inserted? with
    | none =>
      have same := config.server_folded
      rw [inserted] at same
      exact congrArg config.authority same
    | some password =>
      refine config.authority_of_mem ?_
      rw [server_folded, inserted]
      simp
  have path : config.path config.folded.path = config.folded.path := config.path_path _
  rw [fold, server, path]

theorem connectionUrl_refolded_of_plain (plain : ¬ config.Slashed) :
    config.refolded.connectionUrl = config.connectionUrl := by
  rw [connectionUrl_refolded, config.ofText_connectionUrl plain, fold_folded, connectionUrl_eq]

/-- The first slash decides: with no `@` in front of another one there is none in front of it. -/
theorem not_mem_of_first_slash {front behind other others : List Char}
    (same : front ++ '/' :: behind = other ++ '/' :: others) (first : '/' ∉ front) (plain : '@' ∉ other) :
    '@' ∉ front := by
  rcases List.append_eq_append_iff.mp same with ⟨more, rfl, -⟩ | ⟨more, rfl, rest⟩
  · exact fun member => plain (List.mem_append_left _ member)
  · cases more with
    | nil => simpa using plain
    | cons c more =>
      obtain ⟨rfl, -⟩ := List.cons.inj rest
      exact absurd (List.mem_append_right _ List.mem_cons_self) first

/-- The server behind the login is the same with and without the password. -/
theorem host_folded : config.folded.host = (Parts.ofText config.url.toList).host := by
  rw [Parts.host, server_folded, Parts.host]
  cases inserted : config.inserted? with
  | none => rfl
  | some password =>
    obtain ⟨_, -, put⟩ := Option.bind_eq_some_iff.mp inserted
    obtain ⟨plain, -⟩ := Option.ite_none_left_eq_some.mp put
    have clear : ∀ c ∈ (Parts.ofText config.url.toList).server.reverse, decide (c = '@') = false :=
      Url.unmarked fun member => plain (List.mem_reverse.mp member)
    have reversed : (':' :: (password ++ '@' :: (Parts.ofText config.url.toList).server)).reverse =
        (Parts.ofText config.url.toList).server.reverse ++ '@' :: (':' :: password).reverse := by simp
    simp only [Url.cutLast, reversed, Url.cut_append clear (decide_eq_true rfl), Url.cut_of_clear clear,
      List.reverse_reverse]

/-- The connection URL of the same settings with their connection URL for a URL is that URL again just if no
password spills. It has the parts it was made of, the server behind the login among them, just if no password
with a slash is put in. -/
theorem connectionUrl_refolded_iff :
    (config.refolded.connectionUrl = config.connectionUrl ↔ ¬ config.Spills) ∧
      (Parts.ofText config.connectionUrl.toList = config.folded ↔ ¬ config.Slashed) ∧
      config.folded.host = (Parts.ofText config.url.toList).host := by
  refine ⟨⟨?_, ?_⟩, ⟨?_, config.ofText_connectionUrl⟩, config.host_folded⟩
  · rintro same ⟨other, others, inserted, plain⟩
    have slash : '/' ∈ other ++ '/' :: others := by simp
    obtain ⟨front, behind, split, first⟩ := List.eq_append_cons_of_mem slash
    rw [split] at inserted
    exact config.connectionUrl_refolded_ne inserted first (not_mem_of_first_slash split.symm first plain) same
  · intro contained
    by_cases slashed : config.Slashed
    · obtain ⟨password, inserted, slash⟩ := slashed
      obtain ⟨front, behind, rfl, first⟩ := List.eq_append_cons_of_mem slash
      have login : '@' ∈ front := by
        by_contra plain
        exact contained ⟨front, behind, inserted, plain⟩
      exact config.connectionUrl_refolded_of_login inserted first login
    · exact config.connectionUrl_refolded_of_plain slashed
  · intro same slashed
    have server := congrArg Parts.server same
    have clear := Parts.slash_not_mem_server config.connectionUrl.toList
    rw [server] at clear
    exact clear (config.slash_mem_server_folded.mpr slashed)

/-- A password with a slash is put in again behind itself, and the server is no longer where it was. -/
theorem connectionUrl_displaced :
    let config : ServerConfig := { url := "redis://cache", password := some "a/b" }
    config.connectionUrl = "redis://:a/b@cache" ∧ config.refolded.connectionUrl = "redis://:a/b@:a/b@cache" ∧
      (Parts.ofText config.connectionUrl.toList).host = ":a".toList := by
  decide

end ServerConfig

end JobQueue
