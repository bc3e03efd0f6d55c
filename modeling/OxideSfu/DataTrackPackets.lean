import Mathlib.Data.List.Basic

/-!
# Data-track packets on the wire

The parser of data-track packets (`data/packets.rs`). A read of the buffer at a place that it does
not have is a failure of its own. Words are big-endian.
-/

namespace OxideSfu.Signaling

open List

inductive DataTrackPacketError
  | headerSizeInsufficient (actual min : ℕ)
  | extensionSizeInsufficient (remaining available needed : ℕ)
  deriving DecidableEq

/-- How a parser ends without a packet. -/
inductive ParseFailure
  | refused (error : DataTrackPacketError)
  | outOfRange
  deriving DecidableEq

structure DataTrackExtension where
  id : UInt8
  data : List UInt8
  deriving DecidableEq

structure DataTrackHeader where
  version : UInt8
  (isStartOfFrame isFinalOfFrame hasExtensions : Bool)
  (handle sequenceNumber frameNumber : UInt16)
  timestamp : UInt32
  extensions : List DataTrackExtension
  deriving DecidableEq

structure DataTrackPacket where
  header : DataTrackHeader
  payload : List UInt8
  deriving DecidableEq

/-- The bytes from `start` on, `count` of them. -/
def bytesAt (buf : List UInt8) (start count : ℕ) : Except ParseFailure (List UInt8) :=
  if start+count≤buf.length then .ok ((buf.drop start).take count) else .error .outOfRange

def wordAt (buf : List UInt8) (start count : ℕ) : Except ParseFailure ℕ :=
  (bytesAt buf start count).map (foldl (fun n byte => n*256+byte.toNat) 0)

/-- The loop over the extensions. The fuel is the size of their area. -/
def unmarshalExtensions (buf : List UInt8) : ℕ → ℕ → ℕ → ℕ → List DataTrackExtension →
    Except ParseFailure (List DataTrackExtension × ℕ)
  | 0, _, _, headerSize, extensions => .ok (extensions,headerSize)
  | fuel+1, remaining, idx, headerSize, extensions =>
    let insufficient := fun remaining idx needed =>
      .error (.refused (.extensionSizeInsufficient remaining (buf.length-idx) needed))
    if remaining=0 then .ok (extensions,headerSize)
    else if buf.length ≤ idx ∨ remaining<1 then insufficient remaining idx 1
    else do
      let id ← wordAt buf idx 1
      if id=0 then return (extensions,headerSize+remaining)
      else if buf.length ≤ idx+1 ∨ remaining<2 then insufficient remaining idx 2
      else
        let size ← wordAt buf (idx+1) 1
        if buf.length < idx+2+size ∨ remaining-2<size then insufficient (remaining-2) (idx+2) size
        else
          let data ← bytesAt buf (idx+2) size
          unmarshalExtensions buf fuel (remaining-2-size) (idx+2+size) (headerSize+2+size)
            (extensions++[⟨UInt8.ofNat id,data⟩])

def DataTrackHeader.unmarshal (buf : List UInt8) : Except ParseFailure (DataTrackHeader × ℕ) :=
  if buf.length<12 then .error (.refused (.headerSizeInsufficient buf.length 12))
  else do
    let first := UInt8.ofNat (← wordAt buf 0 1)
    let header : DataTrackHeader := {
      version := first >>> 5 &&& 7,isStartOfFrame := first >>> 4 &&& 1≠0
      isFinalOfFrame := first >>> 3 &&& 1≠0,hasExtensions := first >>> 2 &&& 1≠0
      handle := .ofNat (← wordAt buf 2 2),sequenceNumber := .ofNat (← wordAt buf 4 2)
      frameNumber := .ofNat (← wordAt buf 6 2),timestamp := .ofNat (← wordAt buf 8 4)
      extensions := []}
    if header.hasExtensions then
      if buf.length<14 then .error (.refused (.headerSizeInsufficient buf.length 14))
      else
        let area := ((← wordAt buf 12 2)+1)*4-2
        let (extensions,headerSize) ← unmarshalExtensions buf area area 14 14 []
        return ({header with extensions},headerSize)
    else return (header,12)

def DataTrackPacket.unmarshal (buf : List UInt8) : Except ParseFailure DataTrackPacket := do
  let (header,headerSize) ← DataTrackHeader.unmarshal buf
  return ⟨header,← bytesAt buf headerSize (buf.length-headerSize)⟩

/-- Going through whole extensions one meets a zero id. -/
inductive MeetsPadding : List UInt8→Prop
  | zero (rest : List UInt8) : MeetsPadding (0::rest)
  | next {id size : UInt8} {data rest : List UInt8} : id≠0 → data.length=size.toNat →
      MeetsPadding rest → MeetsPadding (id::size::(data++rest))

theorem meetsPadding_next {b s : UInt8} {rest : List UInt8} (hb : b≠0) :
    MeetsPadding (b::s::rest) ↔ s.toNat≤rest.length ∧ MeetsPadding (rest.drop s.toNat) := by
  constructor
  · intro h
    cases h with
    | zero => exact absurd rfl hb
    | next _ hl h =>
      rw [← hl,drop_left,length_append]
      exact ⟨Nat.le_add_right _ _,h⟩
  · rintro ⟨hl,h⟩
    rw [← take_append_drop s.toNat rest]
    exact .next hb (length_take_of_le hl) h

variable {buf rest : List UInt8} {idx : ℕ} {b : UInt8}

theorem wordAt_one (h : buf.drop idx=b::rest) : wordAt buf idx 1=.ok b.toNat := by
  have hl := congrArg length h
  rw [length_drop,length_cons] at hl
  rw [wordAt,bytesAt,if_pos (by omega),h]
  simp [Except.map]

/-- Extensions are parsed up to the end of their area or refused. An area that reaches beyond the
buffer is refused unless padding is met before. -/
theorem unmarshalExtensions_spec {fuel remaining headerSize : ℕ} {es : List DataTrackExtension}
    (hf : remaining≤fuel) (hi : idx≤buf.length) :
    (∃e,unmarshalExtensions buf fuel remaining idx headerSize es=.error (.refused e) ∧
        (buf.length < idx+remaining → ¬MeetsPadding (buf.drop idx))) ∨
      ∃es',unmarshalExtensions buf fuel remaining idx headerSize es=.ok (es',headerSize+remaining) ∧
        (buf.length < idx+remaining → MeetsPadding (buf.drop idx)) := by
  induction fuel generalizing remaining idx headerSize es with
  | zero =>
    obtain rfl : remaining=0 := by omega
    exact .inr ⟨es,rfl,by omega⟩
  | succ fuel ih =>
    rw [unmarshalExtensions]
    by_cases hr : remaining=0
    · subst hr
      exact .inr ⟨es,rfl,by omega⟩
    rw [if_neg hr]
    cases hd : buf.drop idx with
    | nil =>
      rw [if_pos (.inl (drop_eq_nil_iff.mp hd))]
      exact .inl ⟨_,rfl,fun _ h => nomatch h⟩
    | cons b tail =>
      have hl := congrArg length hd
      rw [length_drop,length_cons] at hl
      rw [if_neg (by omega),wordAt_one hd]
      by_cases hb : b=0
      · subst hb
        exact .inr ⟨es,rfl,fun _ => .zero tail⟩
      have hb' : b.toNat≠0 := fun h => hb (UInt8.toNat_inj.mp h)
      simp only [bind,Except.bind,if_neg hb']
      cases tail with
      | nil =>
        rw [length_nil] at hl
        rw [if_pos (.inl (by omega))]
        refine .inl ⟨_,rfl,fun _ h => ?_⟩
        cases h
        exact hb rfl
      | cons s tail =>
        have hd' : buf.drop (idx+1)=s::tail := by rw [← drop_drop,hd]; rfl
        have hd'' : buf.drop (idx+2+s.toNat)=tail.drop s.toNat := by
          rw [← drop_drop,← drop_drop,hd]
          rfl
        rw [length_cons] at hl
        by_cases hr' : remaining<2
        · rw [if_pos (.inr hr')]
          exact .inl ⟨_,rfl,by omega⟩
        rw [if_neg (by omega),wordAt_one hd',meetsPadding_next hb]
        by_cases hs : buf.length < idx+2+s.toNat ∨ remaining-2<s.toNat
        · simp only [if_pos hs]
          exact .inl ⟨_,rfl,fun hlt h => by omega⟩
        · simp only [if_neg hs,bytesAt]
          rw [if_pos (by omega)]
          have hn := @ih (idx+2+s.toNat) (remaining-2-s.toNat) (headerSize+2+s.toNat)
            (es++[⟨UInt8.ofNat b.toNat,(buf.drop (idx+2)).take s.toNat⟩]) (by omega) (by omega)
          rw [hd''] at hn
          have he : headerSize+2+s.toNat+(remaining-2-s.toNat)=headerSize+remaining := by omega
          rw [he] at hn
          obtain ⟨e,hn,hp⟩ | ⟨es',hn,hp⟩ := hn
          · exact .inl ⟨e,hn,fun hlt h => hp (by omega) h.2⟩
          · exact .inr ⟨es',hn,fun hlt => ⟨by omega,hp (by omega)⟩⟩

/-- The size of the extension block that a buffer announces. -/
def announced (buf : List UInt8) : ℕ := ((wordAt buf 12 2).toOption.getD 0+1)*4

def flagsExtensions (buf : List UInt8) : Bool :=
  UInt8.ofNat ((wordAt buf 0 1).toOption.getD 0) >>> 2 &&& 1≠0

theorem exists_wordAt {start count : ℕ} (h : start+count≤buf.length) :
    ∃n,wordAt buf start count=.ok n :=
  ⟨_,by rw [wordAt,bytesAt,if_pos h]; rfl⟩

theorem header_unmarshal_spec (buf : List UInt8) :
    (∃e,DataTrackHeader.unmarshal buf=.error (.refused e) ∧
        (flagsExtensions buf → buf.length<12+announced buf → ¬MeetsPadding (buf.drop 14))) ∨
      ∃header,DataTrackHeader.unmarshal buf= .ok
        (header,if header.hasExtensions then 12+announced buf else 12) ∧
        header.hasExtensions=flagsExtensions buf ∧ 12≤buf.length ∧
        (flagsExtensions buf → buf.length<12+announced buf → MeetsPadding (buf.drop 14)) := by
  have hshort : buf.length<14 → ¬MeetsPadding (buf.drop 14) := by
    intro hl
    rw [drop_eq_nil_iff.mpr (Nat.le_of_lt hl)]
    exact nofun
  rw [DataTrackHeader.unmarshal]
  by_cases hl : buf.length<12
  · rw [if_pos hl]
    exact .inl ⟨_,rfl,fun _ _ => hshort (by omega)⟩
  rw [if_neg hl]
  obtain ⟨first,hfirst⟩ := @exists_wordAt buf 0 1 (by omega)
  obtain ⟨_,h2⟩ := @exists_wordAt buf 2 2 (by omega)
  obtain ⟨_,h4⟩ := @exists_wordAt buf 4 2 (by omega)
  obtain ⟨_,h6⟩ := @exists_wordAt buf 6 2 (by omega)
  obtain ⟨_,h8⟩ := @exists_wordAt buf 8 4 (by omega)
  have hf : flagsExtensions buf=decide (UInt8.ofNat first >>> 2 &&& 1≠0) := by
    rw [flagsExtensions,hfirst]
    rfl
  simp only [hfirst,h2,h4,h6,h8,bind,Except.bind,← hf]
  cases flagsExtensions buf with
  | false => exact .inr ⟨_,rfl,rfl,by omega,nofun⟩
  | true =>
    by_cases hl' : buf.length<14
    · exact .inl ⟨_,by rw [if_pos rfl,if_pos hl'],fun _ _ => hshort hl'⟩
    · obtain ⟨n,hn⟩ := @exists_wordAt buf 12 2 (by omega)
      have ha : announced buf=(n+1)*4 := by
        rw [announced,hn]
        rfl
      simp only [if_true,if_neg hl',hn]
      have hs := @unmarshalExtensions_spec buf 14 ((n+1)*4-2) ((n+1)*4-2) 14 [] (Nat.le_refl _)
        (by omega)
      rw [ha]
      obtain ⟨e,he,hp⟩ | ⟨es,he,hp⟩ := hs
      · rw [he]
        exact .inl ⟨e,rfl,fun _ hlt => hp (by omega)⟩
      · rw [he,show 14+((n+1)*4-2)=12+(n+1)*4 by omega]
        exact .inr ⟨_,rfl,rfl,by omega,fun _ hlt => hp (by omega)⟩

/-- A packet is parsed within its buffer, except when the extension block is announced beyond the
end of the buffer and the loop over the extensions meets padding. -/
theorem packet_parsed_within_iff (buf : List UInt8) :
    (DataTrackPacket.unmarshal buf≠.error .outOfRange ∧
      ∀header size,DataTrackHeader.unmarshal buf=.ok (header,size) → size≤buf.length ∧
        size=if header.hasExtensions then 12+announced buf else 12) ↔
    ¬(flagsExtensions buf ∧ buf.length<12+announced buf ∧ MeetsPadding (buf.drop 14)) := by
  rw [DataTrackPacket.unmarshal]
  obtain ⟨e,he,hp⟩ | ⟨header,he,hx,hl,hp⟩ := header_unmarshal_spec buf
  · simp only [he,bind,Except.bind]
    refine iff_of_true ⟨nofun,nofun⟩ fun h => hp h.1 h.2.1 h.2.2
  · simp only [he,bind,Except.bind]
    by_cases hlt : flagsExtensions buf ∧ buf.length<12+announced buf
    · -- the payload would start beyond the end
      refine iff_of_false (fun h => ?_) (fun h => h ⟨hlt.1,hlt.2,hp hlt.1 hlt.2⟩)
      have hs := (h.2 header _ rfl).1
      rw [hx,hlt.1,if_pos rfl] at hs
      omega
    · have hs : (if header.hasExtensions then 12+announced buf else 12)≤buf.length := by
        rw [hx]
        split_ifs with hf
        · exact Nat.le_of_not_lt fun h => hlt ⟨hf,h⟩
        · exact hl
      refine iff_of_true ⟨?_,?_⟩ fun h => hlt ⟨h.1,h.2.1⟩
      · rw [bytesAt,if_pos (by omega)]
        exact nofun
      · rintro header' size ⟨⟩
        exact ⟨hs,rfl⟩

/-- The first extension id is a zero, and the block is announced beyond the buffer. -/
theorem padding_leaves_buffer :
    DataTrackPacket.unmarshal [4,0,0,0,0,0,0,0,0,0,0,0,0,1,0]=.error .outOfRange := by
  decide +kernel

end OxideSfu.Signaling
