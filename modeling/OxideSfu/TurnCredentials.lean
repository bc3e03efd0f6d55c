import OxideSfu.FiniteMaps
import OxideSfu.RadixConversion

/-!
# TURN credentials

The names and passwords of TURN users (`oxidesfu-server/src/turn_auth.rs`) are written in base 62. A
name holds a key, an id and an expiry.
-/

namespace OxideSfu.Turn

open RadixConversion FiniteMaps List Nat

inductive TurnAuthError
  | invalidBase62 | invalidUtf8 | invalidUsername | invalidExpiry | expired | invalidApiKey

def base62Alphabet : List Char :=
  "0123456789ABCDEFGHIJKLMNOPQRSTUVWXYZabcdefghijklmnopqrstuvwxyz".toList

def base62Value (c : Char) : Option ℕ :=
  if '0'≤c ∧ c ≤ '9' then some (c.toNat - '0'.toNat)
  else if 'A'≤c ∧ c ≤ 'Z' then some (c.toNat - 'A'.toNat+10)
  else if 'a'≤c ∧ c ≤ 'z' then some (c.toNat - 'a'.toNat+36)
  else none

def encodeBase62Bytes (data : List UInt8) : String :=
  .ofList ((convert 256 62 (data.map UInt8.toNat)).map (base62Alphabet.getD · '0'))

def decodeBase62ToBytes (encoded : String) : Except TurnAuthError (List UInt8) :=
  match encoded.toList.mapM base62Value with
  | none => .error .invalidBase62
  | some input => .ok ((convert 62 256 input).map UInt8.ofNat)

/-- Accumulators are 32-bit numbers, and quotients are stored in bytes. -/
def FitsWords (b k : ℕ) (digits : List ℕ) : Prop :=
  ∀accumulated∈divisionsOf b k digits,∀a∈accumulated,a<2^32 ∧ a/k<2^8

theorem fitsWords {b k : ℕ} (hb : 0<b ∧ b≤256) (hk : 0<k ∧ k≤256) {digits : List ℕ}
    (h : ∀d∈digits,d<b) : FitsWords b k digits := by
  intro l hl a ha
  have hlt : a<k*b :=
    accumulated_lt hk.1 (fun d hd => h d ((dropWhile_sublist _).subset hd)) l hl a ha
  have hm := mul_le_mul hk.2 hb.2
  have hq := Nat.div_lt_of_lt_mul hlt
  omega

theorem base62Value_getD {d : ℕ} (h : d<62) : base62Value (base62Alphabet.getD d '0')=some d := by
  have hall : ∀d<62,base62Value (base62Alphabet.getD d '0')=some d := by decide +kernel
  exact hall d h

theorem mapM_base62Value {digits : List ℕ} (h : ∀d∈digits,d<62) :
    (digits.map (base62Alphabet.getD · '0')).mapM base62Value=some digits := by
  induction digits with
  | nil => rfl
  | cons d digits ih =>
    rw [forall_mem_cons] at h
    rw [map_cons,mapM_cons,base62Value_getD h.1,ih h.2]
    rfl

theorem exists_digits {cs : List Char} (h : ∀c∈cs,c∈base62Alphabet) :
    ∃digits : List ℕ,(∀d∈digits,d<62) ∧ cs=digits.map (base62Alphabet.getD · '0') := by
  induction cs with
  | nil => exact ⟨[],by simp,rfl⟩
  | cons c cs ih =>
    rw [forall_mem_cons] at h
    obtain ⟨digits,hd,rfl⟩ := ih h.2
    obtain ⟨d,hlt,hc⟩ := mem_iff_getElem.mp h.1
    refine ⟨d::digits,forall_mem_cons.mpr ⟨hlt,hd⟩,?_⟩
    rw [map_cons,getD_eq_getElem?_getD,getElem?_eq_getElem hlt,hc]
    rfl

theorem decodeBase62ToBytes_encode (data : List UInt8) :
    decodeBase62ToBytes (encodeBase62Bytes data)=.ok data := by
  have hb : ∀d∈data.map UInt8.toNat,d<256 := by
    simpa using fun (x : UInt8) _ => x.toNat_lt
  rw [decodeBase62ToBytes,encodeBase62Bytes,String.toList_ofList,
    mapM_base62Value (convert_lt (by decide) (by decide))]
  simp [convert_convert (by decide : 1<256) (by decide : 1<62) hb,Function.comp_def]

theorem base62_bijective :
    (∀data : List UInt8,decodeBase62ToBytes (encodeBase62Bytes data)=.ok data ∧
      FitsWords 256 62 (data.map UInt8.toNat)) ∧
    ∀encoded : String,(∀c∈encoded.toList,c∈base62Alphabet) →
      ∃input data,encoded.toList.mapM base62Value=some input ∧ FitsWords 62 256 input ∧
        decodeBase62ToBytes encoded=.ok data ∧ encodeBase62Bytes data=encoded := by
  constructor
  · intro data
    refine ⟨decodeBase62ToBytes_encode data,fitsWords (by decide) (by decide) ?_⟩
    simpa using fun (x : UInt8) _ => x.toNat_lt
  · intro encoded h
    obtain ⟨digits,hd,hs⟩ := exists_digits h
    have hm := mapM_base62Value hd
    rw [← hs] at hm
    refine ⟨digits,_,hm,fitsWords (by decide) (by decide) hd,by rw [decodeBase62ToBytes,hm],?_⟩
    have hn : ((convert 62 256 digits).map UInt8.ofNat).map UInt8.toNat=convert 62 256 digits := by
      rw [map_map]
      refine (map_congr_left fun d hdm => ?_).trans (map_id _)
      exact mod_eq_of_lt (convert_lt (by decide) (by decide) d hdm)
    rw [encodeBase62Bytes,hn,convert_convert (by decide) (by decide) hd,← hs,String.ofList_toList]

theorem base62_bijective_0z :
    ∃data,decodeBase62ToBytes "0z"=.ok data ∧ encodeBase62Bytes data = "0z" := by
  have h : "0z".toList.all base62Alphabet.contains := by decide +kernel
  obtain ⟨_,data,-,-,hd,he⟩ :=
    base62_bijective.2 "0z" (fun c hc => contains_iff_mem.mp (all_eq_true.mp h c hc))
  exact ⟨data,hd,he⟩

inductive TurnMethod | allocate | refresh | createPermission | channelBind | send
  deriving DecidableEq

structure TurnRequestAttributes where
  username : String
  method : TurnMethod

structure ParsedTurnUsername where
  (apiKey participantId : String)
  expiryUnixSeconds : Int64

structure TurnAuthDecision where
  userId : String := ""
  key : List UInt8 := []
  ok : Bool := false

def TurnAuthDecision.reject : TurnAuthDecision := {}

/-- The configured secrets, and the digests, which are any functions. -/
structure TurnAuthHandler where
  secretsByApiKey : FiniteMap String String
  (sha256 md5 : List UInt8 → List UInt8)

def asBytes (text : String) : List UInt8 := text.toByteArray.data.toList

def fromUtf8 (bytes : List UInt8) : Option String := String.fromUTF8? ⟨bytes.toArray⟩

def decimal (n : Int64) : List Char :=
  if n.toInt<0 then '-'::toDigits 10 n.toInt.natAbs else toDigits 10 n.toInt.natAbs

def signed (negative : Bool) (digits : List Char) : Option Int64 :=
  let n : ℤ := if negative then -ofDigitChars 10 digits 0 else ofDigitChars 10 digits 0
  if digits≠[] ∧ digits.all Char.isDigit ∧ -2^63≤n ∧ n<2^63 then some (.ofInt n) else none

def parseI64 : List Char→Option Int64
  | '-'::digits => signed true digits
  | '+'::digits => signed false digits
  | digits => signed false digits

/-- Three fields with separators. -/
def joined (first second : String) (n : Int64) : String :=
  .ofList (['|'].intercalate [first.toList,second.toList,decimal n])

def saturatingAdd (a b : Int64) : Int64 := .ofInt (max (-2^63) (min (a.toInt+b.toInt) (2^63-1)))

def generateTurnAuthKey (md5 : List UInt8 → List UInt8) (username realm password : String) :
    List UInt8 :=
  md5 (asBytes username++asBytes ":"++asBytes realm++asBytes ":"++asBytes password)

namespace TurnAuthHandler

variable (handler : TurnAuthHandler) (apiKey participantId username : String)

def createUsernameAt (ttlSeconds now : Int64) : String × Int64 :=
  let expiry := saturatingAdd now ttlSeconds
  (encodeBase62Bytes (asBytes (joined apiKey participantId expiry)),expiry)

def parseUsername : Except TurnAuthError ParsedTurnUsername := do
  match fromUtf8 (← decodeBase62ToBytes username) with
  | none => .error .invalidUtf8
  | some decoded =>
    match decoded.toList.splitOn '|' with
    | [apiKey,participantId,expiry] =>
      match parseI64 expiry with
      | none => .error .invalidExpiry
      | some expiry =>
        if expiry=0 then .error .expired else .ok ⟨.ofList apiKey,.ofList participantId,expiry⟩
    | _ => .error .invalidUsername

def computePassword (expiry : Int64) : Except TurnAuthError String :=
  match handler.secretsByApiKey.lookup apiKey with
  | none => .error .invalidApiKey
  | some secret => .ok (encodeBase62Bytes
    (handler.sha256 (asBytes (joined secret participantId expiry))))

def createPasswordAt (expiry now : Int64) : Except TurnAuthError String :=
  if expiry=0 ∨ expiry<now then .error .expired
  else handler.computePassword apiKey participantId expiry

def handleAuthAt (request : TurnRequestAttributes) (now : Int64) : TurnAuthDecision :=
  match parseUsername request.username with
  | .error _ => .reject
  | .ok parsed =>
    if parsed.expiryUnixSeconds<now ∧ request.method = .allocate then .reject
    else
      match handler.computePassword parsed.apiKey parsed.participantId parsed.expiryUnixSeconds with
      | .error _ => .reject
      | .ok password =>
        ⟨parsed.participantId,
          generateTurnAuthKey handler.md5 request.username "livekit" password,true⟩

variable {apiKey participantId}

theorem signed_toDigits {n : Int64} {negative : Bool}
    (h : (if negative then -(n.toInt.natAbs : ℤ) else n.toInt.natAbs)=n.toInt) :
    signed negative (toDigits 10 n.toInt.natAbs)=some n := by
  have hd : (toDigits 10 n.toInt.natAbs).all Char.isDigit :=
    all_eq_true.mpr fun _ => isDigit_of_mem_toDigits (by decide) (by decide)
  rw [signed,ofDigitChars_toDigits (by decide) (by decide),h]
  exact (if_pos ⟨toDigits_ne_nil,hd,n.le_toInt,n.toInt_lt⟩).trans (congrArg some n.ofInt_toInt)

theorem parseI64_decimal (n : Int64) : parseI64 (decimal n)=some n := by
  rw [decimal]
  split_ifs
  · exact signed_toDigits (by rw [if_pos rfl]; omega)
  · rw [parseI64.eq_def]
    have hs : ∀c cs,toDigits 10 n.toInt.natAbs=c::cs → c.isDigit := by
      intro c cs h
      exact isDigit_of_mem_toDigits (by decide) (by decide) (h ▸ mem_cons_self)
    split
    · next h => exact absurd (hs _ _ h) (by decide)
    · next h => exact absurd (hs _ _ h) (by decide)
    · exact signed_toDigits (by rw [if_neg Bool.false_ne_true]; omega)

theorem fromUtf8_asBytes (text : String) : fromUtf8 (asBytes text)=some text := by
  exact dif_pos text.isValidUTF8

theorem notMem_decimal (n : Int64) : '|'∉decimal n := by
  intro h
  have hd : ∀m : ℕ,'|'∉toDigits 10 m := fun m h =>
    absurd (isDigit_of_mem_toDigits (by decide) (by decide) h) (by decide)
  rw [decimal] at h
  split_ifs at h
  · exact hd _ ((mem_cons.mp h).resolve_left (by decide))
  · exact hd _ h

theorem splitOn_joined {first second : String} (hf : '|'∉first.toList) (hs : '|'∉second.toList)
    (n : Int64) :
    (joined first second n).toList.splitOn '|'=[first.toList,second.toList,decimal n] := by
  rw [joined,String.toList_ofList]
  refine splitOn_intercalate '|' (fun l hl => ?_) (by simp)
  simp only [mem_cons,not_mem_nil,or_false] at hl
  obtain rfl | rfl | rfl := hl
  · exact hf
  · exact hs
  · exact notMem_decimal n

theorem parseUsername_joined {n : Int64} (hn : n≠0) (ha : '|'∉apiKey.toList)
    (hp : '|'∉participantId.toList) :
    parseUsername (encodeBase62Bytes (asBytes (joined apiKey participantId n)))= .ok
      ⟨apiKey,participantId,n⟩ := by
  rw [parseUsername,decodeBase62ToBytes_encode]
  simp [bind,Except.bind,fromUtf8_asBytes,splitOn_joined ha hp,parseI64_decimal,hn]

theorem exists_fields {username : String} {parsed : ParsedTurnUsername}
    (h : parseUsername username=.ok parsed) :
    ∃bytes text key id expiry,decodeBase62ToBytes username=.ok bytes ∧ fromUtf8 bytes=some text ∧
      text.toList.splitOn '|'=[key,id,expiry] ∧ .ofList key=parsed.apiKey := by
  rw [parseUsername] at h
  cases hb : decodeBase62ToBytes username with
  | error => rw [hb] at h; cases h
  | ok bytes =>
    simp only [hb,bind,Except.bind] at h
    split at h
    · cases h
    next text ht =>
      split at h
      next key id expiry hs =>
        split at h
        · cases h
        · split_ifs at h
          cases h
          exact ⟨bytes,text,key,id,expiry,rfl,ht,hs,rfl⟩
      · cases h

theorem handleAuthAt_of_parsed {username secret : String} {method : TurnMethod} {expiry : Int64}
    (h : parseUsername username=.ok ⟨apiKey,participantId,expiry⟩)
    (hs : handler.secretsByApiKey.lookup apiKey=some secret) (now : Int64) :
    ∃password,handler.computePassword apiKey participantId expiry=.ok password ∧
      handler.handleAuthAt ⟨username,method⟩ now=
        if expiry<now ∧ method = .allocate then .reject
        else ⟨participantId,generateTurnAuthKey handler.md5 username "livekit" password,true⟩ := by
  refine ⟨_,by rw [computePassword,hs],?_⟩
  simp only [handleAuthAt,h,computePassword,hs]

/-- Credentials are accepted until they expire, with the key of the password that goes with them.
What is accepted has three fields and a configured key. -/
theorem credentials_valid_until_expiry :
    (∀apiKey participantId ttl now,apiKey∈handler.secretsByApiKey.keys → '|'∉apiKey.toList →
      '|'∉participantId.toList → ∀username expiry,
      createUsernameAt apiKey participantId ttl now=(username,expiry) → expiry≠0 →
      parseUsername username=.ok ⟨apiKey,participantId,expiry⟩ ∧ ∀method time decision,
        handler.handleAuthAt ⟨username,method⟩ time=decision →
        (decision.ok ↔ (method = .allocate → time≤expiry)) ∧ ∀issued≤expiry,∃password,
          handler.createPasswordAt apiKey participantId expiry issued=.ok password ∧
          (decision.ok → decision=
            ⟨participantId,generateTurnAuthKey handler.md5 username "livekit" password,true⟩)) ∧
    ∀username method time,(handler.handleAuthAt ⟨username,method⟩ time).ok →
      ∃bytes text key id expiry,decodeBase62ToBytes username=.ok bytes ∧ fromUtf8 bytes=some text ∧
        text.toList.splitOn '|'=[key,id,expiry] ∧ .ofList key∈handler.secretsByApiKey.keys := by
  constructor
  · intro apiKey participantId ttl now hk ha hp username expiry hc he
    obtain ⟨hn,hx⟩ := Prod.mk.inj hc
    rw [hx] at hn
    subst hn
    obtain ⟨secret,hs⟩ :=
      Option.isSome_iff_exists.mp ((handler.secretsByApiKey.mem_keys apiKey).mp hk)
    have hu := parseUsername_joined he ha hp
    refine ⟨hu,fun method time decision hdec => ?_⟩
    obtain ⟨password,hpass,hd⟩ := @handleAuthAt_of_parsed handler _ _ _ _ method _ hu hs time
    rw [hd] at hdec
    subst hdec
    refine ⟨?_,fun issued hi => ⟨password,?_,?_⟩⟩
    · split_ifs with h
      · simpa [TurnAuthDecision.reject,h.2] using h.1
      · exact iff_of_true rfl fun hm => Int64.not_lt.mp fun hlt => h ⟨hlt,hm⟩
    · rw [createPasswordAt,if_neg (by simp [he,hi]),hpass]
    · split_ifs
      · exact nofun
      · exact fun _ => rfl
  · intro username method time h
    rw [handleAuthAt] at h
    split at h
    · cases h
    next parsed hp =>
      obtain ⟨bytes,text,key,id,expiry,hb,ht,hf,hk⟩ := exists_fields hp
      refine ⟨bytes,text,key,id,expiry,hb,ht,hf,?_⟩
      split_ifs at h
      · cases h
      · rw [computePassword] at h
        cases hs : handler.secretsByApiKey.lookup parsed.apiKey with
        | none => simp [hs,TurnAuthDecision.reject] at h
        | some secret => exact hk ▸ FiniteMap.mem_keys_of_lookup hs

/-- One key, and digests that change nothing. -/
def plainHandler : TurnAuthHandler where
  secretsByApiKey := FiniteMap.empty.insert "key" "secret"
  sha256 := id
  md5 := id

theorem credentials_valid_for_a_minute :
    let issued := createUsernameAt "key" "PA_1" 60 1000
    issued.2 = 1060 ∧ (plainHandler.handleAuthAt ⟨issued.1,.allocate⟩ 1060).ok ∧
      ¬(plainHandler.handleAuthAt ⟨issued.1,.allocate⟩ 1061).ok := by
  intro issued
  have hissued : issued.2 = 1060 := by decide
  obtain ⟨-,haccepts⟩ := plainHandler.credentials_valid_until_expiry.1 "key" "PA_1" 60 1000
    (by decide) (by decide) (by decide) issued.1 issued.2 rfl (by decide)
  refine ⟨hissued,(haccepts .allocate 1060 _ rfl).1.mpr fun _ => Int64.le_refl _,fun hok => ?_⟩
  have hle := (haccepts .allocate 1061 _ rfl).1.mp hok rfl
  rw [hissued] at hle
  exact absurd hle (by decide)

end TurnAuthHandler

end OxideSfu.Turn
