import Apicast.Foundation.Base64
import Apicast.Foundation.LuaPattern

/-!
# The parser of authorization headers

A header is split into its scheme and its parameter, and known schemes parse the parameter. The
user id of basic credentials ends at the last colon, because the first group of the pattern takes
as much as it can. Credentials with colons in the password are therefore split in the wrong place.
-/

namespace Apicast.HttpAuthorization

open Foundation Bytes

/-- The fields that a parser returns. -/
structure Parsed where
  userid : Option Bytes
  password : Option Bytes
  token : Option Bytes
  credentials : List String

structure Authorization where
  scheme : Option Bytes
  param : Option Bytes
  parsed : Parsed

def colon : UInt8 := 58

/-- `(.*)` -/
def anything : LuaPiece := ⟨fun _ => true, .many, true⟩

/-- `'^(.*):(.*)$'` -/
def userPass : LuaPattern := [anything, ⟨(· = colon), .once, false⟩, anything]

/-- `"^(%w+)%s*(.*)$"` -/
def schemeParam : LuaPattern :=
  [⟨isAlnum, .some, true⟩, ⟨isSpace, .many, false⟩, anything]

/-- The captures of a match, two for these patterns. -/
def matchTwo (pattern : LuaPattern) (subject : Bytes) : Option Bytes × Option Bytes :=
  match LuaPattern.matchAll pattern subject with
  | some captures => (captures[0]?, captures[1]?)
  | none => (none, none)

section Parsers

-- `ngx.decode_base64`
variable (decodeBase64 : Bytes → Option Bytes)

/-- `_M.parsers.Basic` -/
def basic (param : Bytes) : Parsed :=
  let (userid, password) :=
    match decodeBase64 param with
    | some user_pass => matchTwo userPass user_pass
    | none => (none, none)
  { userid, password, token := none, credentials := ["userid", "password"] }

/-- `_M.parsers.Bearer` -/
def bearer (param : Bytes) : Parsed :=
  { userid := none, password := none, token := some param, credentials := ["token"] }

/-- `_M.parsers.null` -/
def null : Parsed := { userid := none, password := none, token := none, credentials := [] }

/-- `_M.parsers[scheme]`, or the parser that parses nothing. -/
def parse (scheme param : Option Bytes) : Parsed :=
  match scheme, param with
  | some scheme, some param =>
      if scheme = ascii "Basic" then basic decodeBase64 param
      else if scheme = ascii "Bearer" then bearer param
      else null
  | _, _ => null

/-- `_M.new` -/
def new (value : Option Bytes) : Authorization :=
  let (scheme, param) := matchTwo schemeParam (value.getD [])
  { scheme, param, parsed := parse decodeBase64 scheme param }

end Parsers

/-- The header of basic credentials. -/
def basicHeader (userid password : Bytes) : Bytes :=
  ascii "Basic " ++ Base64.encode (userid ++ colon :: password)

/-- Parsing the header of the credentials gives them back. -/
def DecodesTo (decodeBase64 : Bytes → Option Bytes) (userid password : Bytes) : Prop :=
  let authorization := new decodeBase64 (some (basicHeader userid password))
  authorization.parsed.userid = some userid ∧ authorization.parsed.password = some password

/-- The last group of a pattern takes what is left. -/
theorem matchAll_anything (rest : Bytes) : LuaPattern.matchAll [anything] rest = some [rest] := by
  have whole : LuaPattern.matchAll [anything] (rest ++ []) = some [rest] :=
    LuaPattern.matchAll_longest (by simp [anything]) (by simp [anything]) (by simp [anything])
      (by simp) rfl
  rwa [List.append_nil] at whole

/-- The user id ends at the last colon. -/
theorem matchTwo_userPass {before after : Bytes} (last : colon ∉ after) :
    matchTwo userPass (before ++ colon :: after) = (some before, some after) := by
  have found : LuaPattern.matchAll userPass (before ++ colon :: after) = some [before, after] :=
    LuaPattern.matchAll_last rfl (fun _ => rfl) rfl rfl rfl (by simp) last
      (matchAll_anything after)
  rw [matchTwo, found]
  rfl

/-- A scheme, a blank and a parameter. -/
theorem matchTwo_schemeParam {scheme param : Bytes} (nonempty : scheme ≠ [])
    (word : ∀ byte ∈ scheme, isAlnum byte = true)
    (visible : ∀ byte ∈ param.head?, isSpace byte = false) :
    matchTwo schemeParam (scheme ++ 32 :: param) = (some scheme, some param) := by
  have blank : LuaPattern.matchAll [⟨isSpace, .many, false⟩, anything] ([32] ++ param) =
      some [param] :=
    LuaPattern.matchAll_longest (by simp) (by simp) (forall_mem_of_all rfl) visible
      (matchAll_anything param)
  have found : LuaPattern.matchAll schemeParam (scheme ++ ([32] ++ param)) =
      some [scheme, param] :=
    LuaPattern.matchAll_longest (by simp) (fun _ => nonempty) word (by simp; decide) blank
  rw [matchTwo]
  change (match LuaPattern.matchAll schemeParam (scheme ++ ([32] ++ param)) with
    | some captures => (captures[0]?, captures[1]?)
    | none => (none, none)) = _
  rw [found]
  rfl

section Decoding

variable {decodeBase64 : Bytes → Option Bytes} {userid password : Bytes}

/-- What the parser makes of the credentials is what the pattern makes of them. -/
theorem parsed_basicHeader (inverts : ∀ bytes, decodeBase64 (Base64.encode bytes) = some bytes) :
    (new decodeBase64 (some (basicHeader userid password))).parsed =
      { userid := (matchTwo userPass (userid ++ colon :: password)).1
        password := (matchTwo userPass (userid ++ colon :: password)).2
        token := none, credentials := ["userid", "password"] } := by
  have header : basicHeader userid password =
      ascii "Basic" ++ 32 :: Base64.encode (userid ++ colon :: password) := rfl
  have split : matchTwo schemeParam
      (ascii "Basic" ++ 32 :: Base64.encode (userid ++ colon :: password)) = _ :=
    matchTwo_schemeParam (by decide) (forall_mem_of_all rfl) (Base64.isSpace_head_encode _)
  rw [new, Option.getD_some, header, split]
  simp [parse, basic, inverts]

/-- Text with a separator in it can be split at the last one. -/
theorem exists_last_colon {text : Bytes} (member : colon ∈ text) :
    ∃ before after, text = before ++ colon :: after ∧ colon ∉ after := by
  obtain ⟨after, before, split, fresh⟩ :=
    List.eq_append_cons_of_mem (List.mem_reverse.mpr member)
  refine ⟨before.reverse, after.reverse, ?_, mt List.mem_reverse.mp fresh⟩
  rw [← List.reverse_reverse text, split]
  simp

theorem decodesTo_of_plain (inverts : ∀ bytes, decodeBase64 (Base64.encode bytes) = some bytes)
    (plain : colon ∉ password) : DecodesTo decodeBase64 userid password := by
  rw [DecodesTo, parsed_basicHeader inverts, matchTwo_userPass plain]
  exact ⟨rfl, rfl⟩

theorem plain_of_decodesTo (inverts : ∀ bytes, decodeBase64 (Base64.encode bytes) = some bytes)
    (decodes : DecodesTo decodeBase64 userid password) : colon ∉ password := by
  intro member
  obtain ⟨before, after, rfl, last⟩ := exists_last_colon member
  rw [DecodesTo, parsed_basicHeader inverts] at decodes
  have split : matchTwo userPass ((userid ++ colon :: before) ++ colon :: after) = _ :=
    matchTwo_userPass last
  rw [List.append_assoc, List.cons_append] at split
  rw [split] at decodes
  have longer := congrArg List.length (Option.some.inj decodes.1)
  rw [List.length_append, List.length_cons] at longer
  omega

/-- **Basic credentials.** With a decoder that inverts the base64 encoding, the parser gives back
user id and password exactly if the password has no colon. -/
theorem decodesTo_iff (decodeBase64 : Bytes → Option Bytes)
    (inverts : ∀ bytes, decodeBase64 (Base64.encode bytes) = some bytes)
    (userid password : Bytes) :
    DecodesTo decodeBase64 userid password ↔ colon ∉ password :=
  ⟨plain_of_decodesTo inverts, decodesTo_of_plain inverts⟩

theorem decodesTo_user_pass : DecodesTo Base64.decode (ascii "user") (ascii "pass") :=
  (decodesTo_iff Base64.decode Base64.decode_encode _ _).mpr (by decide)

/-- The first half of the password is taken for a part of the user id. -/
theorem not_decodesTo_colon :
    colon ∉ ascii "user" ∧ ¬DecodesTo Base64.decode (ascii "user") (ascii "pa:ss") :=
  ⟨by decide, fun decodes => plain_of_decodesTo Base64.decode_encode decodes (by decide)⟩

end Decoding

end Apicast.HttpAuthorization
