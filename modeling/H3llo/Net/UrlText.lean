import Mathlib.Data.List.TakeWhile
import Mathlib.Data.Nat.Notation

/-! The text of URLs with an authority, after the URL standard.

Only what decides on the port is read: the scheme, the extent of the authority, and the
colon that ends the host. The rest of a URL is for the parser.
-/

set_option autoImplicit false

namespace H3llo.Net.UrlText

/-! ## Reading the port -/

def defaultPort (scheme : String) : Option Nat :=
  if scheme = "http" ∨ scheme = "ws" then some 80
  else if scheme = "https" ∨ scheme = "wss" then some 443
  else if scheme = "ftp" then some 21
  else none

@[simp] theorem defaultPort_http : defaultPort "http" = some 80 := by decide

@[simp] theorem defaultPort_https : defaultPort "https" = some 443 := by decide

def isSpecial (scheme : String) : Bool := (defaultPort scheme).isSome

def isTabOrNewline (char : Char) : Bool := char = '\t' || char = '\n' || char = '\r'

/-- Tabs and newlines do not count, nor do control characters and spaces in front. -/
def cleaned (raw : List Char) : List Char :=
  (raw.filter fun char => !isTabOrNewline char).dropWhile fun char => char.toNat ≤ 0x20

def endsAuthority (special : Bool) (char : Char) : Bool :=
  char = '/' || char = '?' || char = '#' || (special && char = '\\')

def authority (text : List Char) : Option (List Char) :=
  let scheme := String.ofList ((text.takeWhile (· ≠ ':')).map Char.toLower)
  let rest := (text.dropWhile (· ≠ ':')).drop 1
  if isSpecial scheme then
    some ((rest.dropWhile fun char => char = '/' || char = '\\').takeWhile fun char =>
      !endsAuthority true char)
  else
    match rest with
    | '/' :: '/' :: rest => some (rest.takeWhile fun char => !endsAuthority false char)
    | _ => none

def hostPort (authority : List Char) : List Char := (authority.reverse.takeWhile (· ≠ '@')).reverse

def portText (inside : Bool) : List Char → List Char
  | [] => []
  | char :: rest =>
      if char = ':' ∧ inside = false then rest
      else portText (if char = '[' then true else if char = ']' then false else inside) rest

def portValue (text : List Char) : Option Nat :=
  let digits := text.takeWhile Char.isDigit
  if digits = [] then none else some (Nat.ofDigitChars 10 digits 0)

def writtenPort (raw : String) : Option Nat :=
  match authority (cleaned raw.toList) with
  | none => none
  | some authority => portValue (portText false (hostPort authority))

/-! ## Writing a URL -/

def forbiddenHostChars : List Char :=
  ['\x00', '\t', '\n', '\r', ' ', '#', '/', ':', '<', '>', '?', '@', '[', '\\', ']', '^', '|']

/-- A host as it is written: a name, or an address in brackets. -/
def SerialisedHost (host : String) : Prop :=
  (∀ char ∈ host.toList, char ∉ forbiddenHostChars) ∨
    ∃ inner, host.toList = '[' :: (inner ++ [']']) ∧ ∀ char ∈ inner, char = ':' ∨
      char ∉ forbiddenHostChars

def SerialisedPath (path : String) : Prop := path = "" ∨ path.toList.head? = some '/'

def portSuffix : Option Nat → String
  | none => ""
  | some port => ":" ++ toString port

def render (scheme host : String) (port : Option Nat) (path : String) : String :=
  scheme ++ "://" ++ host ++ portSuffix port ++ path

theorem render_some (scheme host : String) (port : Nat) (path : String) :
    render scheme host (some port) path = scheme ++ "://" ++ host ++ ":" ++
      toString port ++ path := by
  simp only [render, portSuffix, String.append_assoc]

theorem render_none (scheme host path : String) :
    render scheme host none path = scheme ++ "://" ++ host ++ path := by
  simp only [render, portSuffix, String.append_empty]

def SerialisedScheme (scheme : String) : Prop := ∀ char ∈ scheme.toList, char.isLower

instance (scheme : String) : Decidable (SerialisedScheme scheme) :=
  decidable_of_iff (scheme.toList.all Char.isLower) List.all_eq_true

def parts (raw : String) : Option (String × String × Option Nat × String) :=
  match authority raw.toList with
  | none => none
  | some authority =>
      let scheme := raw.toList.takeWhile (· ≠ ':')
      let port := portValue (portText false authority)
      let host := authority.take (authority.length - (portSuffix port).length)
      let path := raw.toList.drop (scheme.length + 3 + authority.length)
      some (String.ofList scheme, String.ofList host, port, String.ofList path)

/-! ## Reading what was written -/

theorem takeWhile_append_stop {p : Char → Bool} {front back : List Char}
    (passes : ∀ char ∈ front, p char) (stops : ∀ char ∈ back.head?, p char = false) :
    (front ++ back).takeWhile p = front := by
  rw [List.takeWhile_append_of_pos passes]
  cases back with
  | nil => simp
  | cons char rest => simp [stops char rfl]

theorem not_isTabOrNewline {char : Char} (inside : char ∉ forbiddenHostChars) :
    isTabOrNewline char = false := by
  simp only [forbiddenHostChars, List.mem_cons, not_or] at inside
  simp [isTabOrNewline, inside]

theorem not_endsAuthority {char : Char} (inside : char ∉ forbiddenHostChars) (special : Bool) :
    endsAuthority special char = false := by
  simp only [forbiddenHostChars, List.mem_cons, not_or] at inside
  simp [endsAuthority, inside]

/-- Nothing in the character ends an authority or its user information. -/
def Plain (char : Char) : Prop :=
  isTabOrNewline char = false ∧ (∀ special, endsAuthority special char = false) ∧ char ≠ '@'

theorem plain_of_inside {char : Char} (inside : char ∉ forbiddenHostChars) : Plain char := by
  refine ⟨not_isTabOrNewline inside, not_endsAuthority inside, ?_⟩
  rintro rfl
  exact inside (by decide)

theorem plain_of_isDigit {char : Char} (digit : char.isDigit) : Plain char := by
  have apart : forbiddenHostChars.all (fun char => !char.isDigit) = true := by decide
  apply plain_of_inside
  intro forbidden
  have other := List.all_eq_true.mp apart char forbidden
  simp [digit] at other

theorem plain_colon : Plain ':' := ⟨by decide, fun special => by cases special <;> rfl, by decide⟩

namespace SerialisedHost

variable {host : String} (serialised : SerialisedHost host)
include serialised

theorem plain : ∀ char ∈ host.toList, Plain char := by
  intro char member
  rcases serialised with name | ⟨inner, bracketed, inside⟩
  · exact plain_of_inside (name char member)
  · rw [bracketed, List.mem_cons, List.mem_append, List.mem_singleton] at member
    rcases member with rfl | member | rfl
    · exact ⟨by decide, fun special => by cases special <;> rfl, by decide⟩
    · rcases inside char member with rfl | inside
      · exact plain_colon
      · exact plain_of_inside inside
    · exact ⟨by decide, fun special => by cases special <;> rfl, by decide⟩

theorem portText_append (back : List Char) :
    portText false (host.toList ++ back) = portText false back := by
  have outside (front : List Char) (name : ∀ char ∈ front, char ∉ forbiddenHostChars) :
      portText false (front ++ back) = portText false back := by
    induction front with
    | nil => rfl
    | cons char rest ih =>
      have own := name char List.mem_cons_self
      simp only [forbiddenHostChars, List.mem_cons, not_or] at own
      rw [List.cons_append, portText]
      simp only [own, false_and, if_false]
      exact ih fun char member => name char (List.mem_cons_of_mem _ member)
  have within (front : List Char) (name : ∀ char ∈ front, char = ':' ∨ char ∉ forbiddenHostChars) :
      portText true (front ++ (']' :: back)) = portText false back := by
    induction front with
    | nil => simp [portText]
    | cons char rest ih =>
      have later := ih fun char member => name char (List.mem_cons_of_mem _ member)
      rcases name char List.mem_cons_self with rfl | own
      · simpa [portText] using later
      · simp only [forbiddenHostChars, List.mem_cons, not_or] at own
        rw [List.cons_append, portText]
        simp only [own, false_and, if_false]
        exact later
  rcases serialised with name | ⟨inner, bracketed, inside⟩
  · exact outside host.toList name
  · rw [bracketed, List.cons_append, List.append_assoc, List.singleton_append, portText]
    simp only [Char.reduceEq, false_and, if_false, if_true]
    exact within inner inside

end SerialisedHost

theorem hostPort_plain {text : List Char} (plain : ∀ char ∈ text, Plain char) :
    hostPort text = text := by
  have all : text.reverse.takeWhile (· ≠ '@') = text.reverse := by
    rw [List.takeWhile_eq_self_iff]
    intro char member
    simpa using (plain char (List.mem_reverse.mp member)).2.2
  rw [hostPort, all, List.reverse_reverse]

theorem portSuffix_plain (port : Option Nat) : ∀ char ∈ (portSuffix port).toList, Plain char := by
  intro char member
  cases port with
  | none => simp [portSuffix] at member
  | some port =>
    rw [portSuffix, String.toList_append, List.mem_append] at member
    rcases member with colon | digit
    · have own : char = ':' := by simpa using colon
      rw [own]
      exact plain_colon
    · rw [Nat.toString_eq_repr, Nat.toList_repr] at digit
      exact plain_of_isDigit (Nat.isDigit_of_mem_toDigits (by decide) (by decide) digit)

theorem portValue_portSuffix (port : Option Nat) :
    portValue (portText false (portSuffix port).toList) = port := by
  cases port with
  | none => rfl
  | some port =>
    have digits : portText false (portSuffix (some port)).toList = Nat.toDigits 10 port := by
      rw [portSuffix, String.toList_append, Nat.toString_eq_repr, Nat.toList_repr]
      rfl
    have all : (Nat.toDigits 10 port).takeWhile Char.isDigit = Nat.toDigits 10 port := by
      rw [List.takeWhile_eq_self_iff]
      intro char member
      exact Nat.isDigit_of_mem_toDigits (by decide) (by decide) member
    rw [digits, portValue, all]
    simp [Nat.toDigits_ne_nil, Nat.ofDigitChars_ten_toDigits]

theorem filter_plain {text : List Char} (plain : ∀ char ∈ text, Plain char) :
    (text.filter fun char => !isTabOrNewline char) = text := by
  rw [List.filter_eq_self]
  intro char member
  simp [(plain char member).1]

theorem filter_scheme {scheme : List Char} (lower : ∀ char ∈ scheme, char.isLower) :
    (scheme.filter fun char => !isTabOrNewline char) = scheme := by
  rw [List.filter_eq_self]
  intro char member
  have own := lower char member
  have apart : isTabOrNewline char = false := by
    simp only [isTabOrNewline, Bool.or_eq_false_iff, decide_eq_false_iff_not]
    refine ⟨⟨?_, ?_⟩, ?_⟩ <;>
    · rintro rfl
      exact absurd own (by decide)
  simp [apart]

section Render

variable {scheme host path : String} (lower : SerialisedScheme scheme)
  (serialised : SerialisedHost host) (port : Option Nat)

include serialised in
theorem body_plain : ∀ char ∈ host.toList ++ (portSuffix port).toList, Plain char := by
  intro char member
  rcases List.mem_append.mp member with member | member
  · exact serialised.plain char member
  · exact portSuffix_plain port char member

theorem body_ne_nil (nonempty : host ≠ "") : host.toList ++ (portSuffix port).toList ≠ [] := by
  intro empty
  exact nonempty (String.toList_eq_nil_iff.mp (List.append_eq_nil_iff.mp empty).1)

theorem toList_render : (render scheme host port path).toList =
    scheme.toList ++
      (':' :: '/' :: '/' :: ((host.toList ++ (portSuffix port).toList) ++ path.toList)) := by
  simp [render]

include lower serialised in
theorem cleaned_render (behind : SerialisedPath path) :
    ∃ rest, (∀ char ∈ rest.head?, char = '/') ∧ cleaned (render scheme host port path).toList =
      scheme.toList ++
        (':' :: '/' :: '/' :: ((host.toList ++ (portSuffix port).toList) ++ rest)) := by
  refine ⟨path.toList.filter fun char => !isTabOrNewline char, ?_, ?_⟩
  · intro char first
    rcases behind with rfl | slash
    · simp at first
    · obtain ⟨rest, split⟩ := List.head?_eq_some_iff.mp slash
      rw [split] at first
      simpa [isTabOrNewline] using first.symm
  · have body : ((host.toList ++ (portSuffix port).toList).filter fun char =>
        !isTabOrNewline char) =
        host.toList ++ (portSuffix port).toList := filter_plain (body_plain serialised port)
    have text : (render scheme host port path).toList =
        scheme.toList ++
          ([':', '/', '/'] ++ ((host.toList ++ (portSuffix port).toList) ++ path.toList)) :=
      toList_render port
    have start (char : Char) (rest : List Char) : ¬ char.toNat ≤ 0x20 →
        (char :: rest).dropWhile (fun char => char.toNat ≤ 0x20) = char :: rest := by
      intro visible
      simp [visible]
    rw [cleaned, text, List.filter_append, List.filter_append, List.filter_append, body,
      filter_scheme lower]
    have colon : ([':', '/', '/'].filter fun char => !isTabOrNewline char) = [':', '/', '/'] := by
      decide
    rw [colon]
    cases split : scheme.toList with
    | nil => exact start ':' _ (by decide)
    | cons char rest =>
      apply start
      have own : char.isLower := lower char (by rw [split]; exact List.mem_cons_self)
      have small : 97 ≤ char.toNat := of_decide_eq_true (Bool.and_eq_true_iff.mp own).1
      omega

include lower in
theorem scheme_ne_colon : ∀ char ∈ scheme.toList, decide (char ≠ ':') = true := by
  intro char member
  rw [decide_eq_true_eq]
  rintro rfl
  exact absurd (lower ':' member) (by decide)

include lower in
theorem takeWhile_scheme (rest : List Char) :
    (scheme.toList ++ (':' :: rest)).takeWhile (· ≠ ':') = scheme.toList :=
  takeWhile_append_stop (scheme_ne_colon lower) (by simp)

include lower in
theorem authority_written {body rest : List Char} (nonempty : body ≠ [])
    (plain : ∀ char ∈ body, Plain char) (ends : ∀ char ∈ rest.head?, char = '/') :
    authority (scheme.toList ++ (':' :: '/' :: '/' :: (body ++ rest))) = some body := by
  have back : (scheme.toList ++ (':' :: '/' :: '/' :: (body ++ rest))).dropWhile (· ≠ ':') =
      ':' :: '/' :: '/' :: (body ++ rest) := by
    rw [List.dropWhile_append_of_pos (scheme_ne_colon lower)]
    simp
  have whole (special : Bool) : (body ++ rest).takeWhile (fun char => !endsAuthority special char) =
      body := by
    apply takeWhile_append_stop
    · intro char member
      simp [(plain char member).2.1 special]
    · intro char first
      rw [ends char first]
      simp [endsAuthority]
  unfold authority
  simp only [takeWhile_scheme lower, back, List.drop_succ_cons, List.drop_zero]
  split
  · cases body with
    | nil => exact absurd rfl nonempty
    | cons first others =>
      -- the host does not begin with another slash
      have notSlash := (plain first List.mem_cons_self).2.1 true
      simp only [endsAuthority, Bool.or_eq_false_iff, decide_eq_false_iff_not,
        Bool.true_and] at notSlash
      have slashes : ('/' :: '/' :: (first :: others ++ rest)).dropWhile
          (fun char => char = '/' || char = '\\') =
          first :: others ++ rest := by
        simp [notSlash]
      rw [slashes, whole]
  · rw [whole]

include lower serialised in
theorem writtenPort_render (nonempty : host ≠ "") (behind : SerialisedPath path) :
    writtenPort (render scheme host port path) = port := by
  obtain ⟨rest, ends, text⟩ := cleaned_render lower serialised port behind
  have plain := body_plain serialised port
  unfold writtenPort
  rw [text, authority_written lower (body_ne_nil port nonempty) plain ends]
  simp only
  rw [hostPort_plain plain, serialised.portText_append, portValue_portSuffix]

include lower serialised in
theorem parts_render (nonempty : host ≠ "") (behind : SerialisedPath path) :
    parts (render scheme host port path) = some (scheme, host, port, path) := by
  have ends : ∀ char ∈ path.toList.head?, char = '/' := by
    intro char first
    rcases behind with rfl | slash
    · simp at first
    · rw [slash] at first
      exact (Option.some.inj first).symm
  have found := authority_written lower (body_ne_nil port nonempty)
    (body_plain serialised port) ends
  have value : portValue (portText false (host.toList ++ (portSuffix port).toList)) = port := by
    rw [serialised.portText_append, portValue_portSuffix]
  have hosted : (host.toList ++ (portSuffix port).toList).take
      ((host.toList ++ (portSuffix port).toList).length - (portSuffix port).length) =
        host.toList := by
    rw [List.length_append, String.length_toList, String.length_toList, Nat.add_sub_cancel]
    exact List.take_left' String.length_toList
  have behindBody :
      (scheme.toList ++
        (':' :: '/' :: '/' :: ((host.toList ++ (portSuffix port).toList) ++ path.toList))).drop
      (scheme.toList.length + 3 + (host.toList ++ (portSuffix port).toList).length) =
        path.toList := by
    rw [Nat.add_assoc, List.drop_length_add_append, Nat.add_comm 3]
    simp only [List.drop_succ_cons]
    exact List.drop_left
  unfold parts
  rw [toList_render, found]
  simp only [takeWhile_scheme lower, value, hosted, behindBody, String.ofList_toList]

example : writtenPort " http://user:81@[::1]:0\t80?:9" = some 80 := by decide +kernel

end Render
end H3llo.Net.UrlText
