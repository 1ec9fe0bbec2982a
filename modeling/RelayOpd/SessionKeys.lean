import RelayOpd.Gemma4Tools
import RelayOpd.Highest

/-! The keys `{uid}_{session_id}_{index}` of rollout outputs, and their reading by `rsplit`. -/
namespace RelayOpd.SessionKeys

open PyText

/-- `text.rsplit("_", 2)`. -/
def rsplitTwo (text : List Char) : List (List Char) :=
  if '_' ∉ text then [text]
  else
    let last := splitOnce '_' text.reverse
    if '_' ∉ last.2 then [last.2.reverse,last.1.reverse]
    else
      let middle := splitOnce '_' last.2
      [middle.2.reverse,middle.1.reverse,last.1.reverse]

/-- `f"{uid}_{session_id}"`. -/
def sessionKey (uid session : List Char) : List Char := uid ++ '_' :: session

/-- `f"{uid}_{session_id}_{index}"`. -/
def outputKey (uid : List Char) (session index : Nat) : List Char :=
  sessionKey (sessionKey uid (Nat.toDigits 10 session)) (Nat.toDigits 10 index)

theorem underscore_not_mem_reverse (n : Nat) : '_' ∉ (Nat.toDigits 10 n).reverse :=
  fun member => Nat.underscore_not_in_toDigits (List.mem_reverse.mp member)

theorem splitOnce_reverse (text : List Char) (n : Nat) :
    splitOnce '_' (sessionKey text (Nat.toDigits 10 n)).reverse = ((Nat.toDigits 10 n).reverse,text.reverse) := by
  have shape : (sessionKey text (Nat.toDigits 10 n)).reverse = (Nat.toDigits 10 n).reverse ++ '_' :: text.reverse := by
    simp [sessionKey]
  rw [shape,splitOnce_append '_' _ _ (underscore_not_mem_reverse n)]

/-- A key is read back whatever its uid holds. -/
theorem rsplitTwo_outputKey (uid : List Char) (session index : Nat) :
    rsplitTwo (outputKey uid session index) = [uid,Nat.toDigits 10 session,Nat.toDigits 10 index] := by
  have outer : '_' ∈ outputKey uid session index := by simp [outputKey,sessionKey]
  have inner : '_' ∈ (sessionKey uid (Nat.toDigits 10 session)).reverse := by simp [sessionKey]
  rw [rsplitTwo,if_neg (not_not.mpr outer),outputKey,splitOnce_reverse]
  dsimp only
  rw [if_neg (not_not.mpr inner),splitOnce_reverse]
  simp

theorem toDigits_injective {m n : Nat} (same : Nat.toDigits 10 m = Nat.toDigits 10 n) : m = n := by
  rw [← Nat.ofDigitChars_ten_toDigits (n := m),same,Nat.ofDigitChars_ten_toDigits]

/-- A session key names its uid and its session. -/
theorem sessionKey_injective {uid uid' : List Char} {session session' : Nat}
    (same : sessionKey uid (Nat.toDigits 10 session) = sessionKey uid' (Nat.toDigits 10 session')) :
    uid = uid' ∧ session = session' := by
  have read := splitOnce_reverse uid session
  rw [same,splitOnce_reverse uid' session'] at read
  obtain ⟨digits,text⟩ := Prod.mk.inj read
  exact ⟨(List.reverse_inj.mp text).symm,(toDigits_injective (List.reverse_inj.mp digits)).symm⟩

theorem outputKey_injective {uid uid' : List Char} {session session' index index' : Nat}
    (same : outputKey uid session index = outputKey uid' session' index') :
    uid = uid' ∧ session = session' ∧ index = index' := by
  obtain ⟨front,index⟩ := sessionKey_injective same
  obtain ⟨uid,session⟩ := sessionKey_injective front
  exact ⟨uid,session,index⟩

/-- `int` of the digits of a number, as long as Python writes them. -/
theorem pyInt_toDigits (U : Gemma4Tools.Unicode) (n : Nat) (short : (Nat.toDigits 10 n).length ≤ Gemma4Tools.intMaxStrDigits) :
    Gemma4Tools.pyInt U (Nat.toDigits 10 n) = some n := by
  have read := Gemma4Tools.pyInt_dumpInt U n
  rw [Int.natAbs_natCast,if_pos short] at read
  exact read

end RelayOpd.SessionKeys
