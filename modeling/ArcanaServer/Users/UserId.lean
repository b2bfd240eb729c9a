import Mathlib.Data.List.Basic

namespace ArcanaServer.Users

/-! User names, and the grammars that other crates fix: which identifiers are
well formed, and how a text is trimmed and put in lower case. -/

structure Grammar where
  serverName : String
  validLocalpart : String → Bool
  validServerName : String → Bool
  validAddress : String → Bool
  validSessionId : String → Bool
  validClientSecret : String → Bool
  trim : String → String
  toLowercase : String → String

structure UserId where
  localpart : String
  serverName : String
  deriving DecidableEq, Repr

def UserId.toString (userId : UserId) : String :=
  "@" ++ userId.localpart ++ ":" ++ userId.serverName

def splitAtColon : List Char → Option (List Char × List Char)
  | [] => none
  | char :: rest =>
      if char = ':' then some ([], rest)
      else (splitAtColon rest).map (fun parts => (char :: parts.1, parts.2))

namespace Grammar

variable (grammar : Grammar)

def parse (identifier : List Char) : Option UserId :=
  match splitAtColon identifier with
  | none => none
  | some (localpart, serverName) =>
      if grammar.validLocalpart (String.ofList localpart) &&
          grammar.validServerName (String.ofList serverName) then
        some { localpart := String.ofList localpart
               serverName := String.ofList serverName }
      else none

def parseWithServerName (identifier : String) : Option UserId :=
  match identifier.toList with
  | '@' :: rest => grammar.parse rest
  | _ =>
      if grammar.validLocalpart identifier then
        some { localpart := identifier, serverName := grammar.serverName }
      else none

def userIsLocal (userId : UserId) : Bool :=
  userId.serverName = grammar.serverName

def normalizeEmail (email : String) : String :=
  grammar.toLowercase (grammar.trim email)

theorem splitAtColon_fst {text left right : List Char}
    (split : splitAtColon text = some (left, right)) :
    splitAtColon left = none := by
  induction text generalizing left with
  | nil => cases split
  | cons char rest ih =>
      unfold splitAtColon at split
      split at split
      · cases split
        rfl
      · rename_i notColon
        obtain ⟨parts, found, same⟩ := Option.map_eq_some_iff.mp split
        cases same
        rw [splitAtColon, if_neg notColon, ih found]
        rfl

theorem parseWithServerName_noColon {text : List Char} {userId : UserId}
    (noColon : splitAtColon text = none)
    (parsed : grammar.parseWithServerName (String.ofList text) = some userId) :
    userId = { localpart := String.ofList text
               serverName := grammar.serverName } := by
  unfold parseWithServerName at parsed
  rw [String.toList_ofList] at parsed
  split at parsed
  · rename_i rest
    rw [splitAtColon, if_neg (by decide)] at noColon
    rw [parse, Option.map_eq_none_iff.mp noColon] at parsed
    cases parsed
  · split at parsed
    · exact (Option.some.inj parsed).symm
    · cases parsed

/-- A local user whose localpart can be parsed is the user it names. -/
theorem parseWithServerName_localpart {identifier : String}
    {userId other : UserId}
    (parsed : grammar.parseWithServerName identifier = some userId)
    (isLocal : grammar.userIsLocal userId = true)
    (again : grammar.parseWithServerName userId.localpart = some other) :
    other = userId := by
  have sameServer : userId.serverName = grammar.serverName := by
    simpa [userIsLocal] using isLocal
  have whole := parsed
  unfold parseWithServerName at parsed
  split at parsed
  · unfold parse at parsed
    split at parsed
    · cases parsed
    · rename_i localpart server found
      split at parsed
      · cases parsed
        rw [parseWithServerName_noColon grammar (splitAtColon_fst found) again,
          ← sameServer]
      · cases parsed
  · split at parsed
    · cases parsed
      exact Option.some.inj (again.symm.trans whole)
    · cases parsed

end Grammar

end ArcanaServer.Users
