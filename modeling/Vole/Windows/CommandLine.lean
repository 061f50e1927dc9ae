import Vole.Model.IoError
import Mathlib.Tactic.Common

/-!
# The command line of a managed process

Windows passes the arguments of a program as one string, which the program splits
again (`split`). A run of backslashes is read by what stands after it, so a reader is
known by the number of backslashes just before it, and so is the writer.
-/

namespace Vole.Windows

open List

/-- A string of UTF-16 units. -/
abbrev Wide := List UInt16

def quote : UInt16 := 34

def backslash : UInt16 := 92

def space : UInt16 := 32

def tab : UInt16 := 9

/-- `char::encode_utf16`. -/
def encodeUtf16 (c : Char) : Wide :=
  if c.toNat < 0x10000 then [.ofNat c.toNat]
  else
    [.ofNat (0xd800 + (c.toNat - 0x10000) / 0x400), .ofNat (0xdc00 + (c.toNat - 0x10000) % 0x400)]

/-- `str::encode_utf16`. -/
def units (argument : List Char) : Wide := argument.flatMap encodeUtf16

/-- The loop of `append_argument`, with the backslashes it has counted, and what is
pushed after it. -/
def pushUnits (quoted : Bool) (backslashes : ℕ) : Wide → Wide
  | [] => if quoted then replicate backslashes backslash ++ [quote] else []
  | unit :: rest =>
    if unit = backslash then unit :: pushUnits quoted (backslashes + 1) rest
    else if unit = quote then
      replicate (backslashes + 1) backslash ++ unit :: pushUnits quoted 0 rest
    else unit :: pushUnits quoted 0 rest

/-- `append_argument`: what it pushes. -/
def appendArgument (argument : List Char) : Except IoError Wide :=
  if '\x00' ∈ argument then .error ⟨.invalidInput, "invalid managed process argument"⟩
  else if argument = [] ∨ ' ' ∈ argument ∨ '\t' ∈ argument then
    .ok (quote :: pushUnits true 0 (units argument))
  else .ok (pushUnits false 0 (units argument))

/-- `make_command_line`. -/
def makeCommandLine (executable : Wide) (arguments : List (List Char)) : Except IoError Wide :=
  if executable = [] ∨ 0 ∈ executable ∨ quote ∈ executable then
    .error ⟨.invalidInput, "invalid managed process executable path"⟩
  else do
    let pushed ← arguments.mapM appendArgument
    let commandLine := quote :: executable ++ quote :: pushed.flatMap (space :: ·) ++ [0]
    if 32767 ≤ commandLine.length then
      .error ⟨.invalidInput, "managed process command line exceeds Windows limit"⟩
    else .ok commandLine

/-! ## How a program reads it -/

/-- A reader between two units: the arguments that have ended, whether it is in quotes,
the backslashes just before it, and what it has of an argument before them. -/
structure Reader where
  arguments : List Wide
  inQuotes : Bool
  slashes : ℕ
  current : Option Wide

namespace Reader

def start : Reader := ⟨[], false, 0, none⟩

/-- The argument that has begun. -/
def text (self : Reader) : Wide := self.current.getD [] ++ replicate self.slashes backslash

/-- The arguments, if one that has begun ends here. -/
def finish (self : Reader) : List Wide :=
  if self.slashes = 0 then self.arguments ++ self.current.toList else self.arguments ++ [self.text]

/-- The rules of the Microsoft C runtime. -/
def read (self : Reader) (unit : UInt16) : Reader :=
  if unit = backslash then { self with slashes := self.slashes + 1 }
  else if unit = quote then
    let text := self.current.getD [] ++ replicate (self.slashes / 2) backslash
    if self.slashes % 2 = 0 then
      { self with inQuotes := !self.inQuotes, slashes := 0, current := some text }
    else { self with slashes := 0, current := some (text ++ [quote]) }
  else if self.inQuotes = false ∧ (unit = space ∨ unit = tab) then ⟨self.finish, false, 0, none⟩
  else { self with slashes := 0, current := some (self.text ++ [unit]) }

end Reader

/-- The program name, in quotes, and the arguments of a line that ends with a NUL. -/
def split (line : Wide) : List Wide :=
  let line := (line.takeWhile (· ≠ 0)).drop 1
  line.takeWhile (· ≠ quote) ::
    (((line.dropWhile (· ≠ quote)).drop 1).foldl Reader.read .start).finish

variable {text : Wide} {reader : Reader}

theorem foldl_backslashes (n : ℕ) : (replicate n backslash).foldl Reader.read reader =
    { reader with slashes := reader.slashes + n } := by
  induction n generalizing reader with
  | zero => rfl
  | succ n ih =>
    rw [replicate_succ, foldl_cons, ih]
    simp [Reader.read, Nat.add_assoc, Nat.add_comm 1]

/-- An argument with a text ends as that. -/
theorem Reader.finish_of_ne_nil (h : reader.text ≠ []) :
    reader.finish = reader.arguments ++ [reader.text] := by
  obtain ⟨arguments, inQuotes, slashes, current⟩ := reader
  cases slashes <;> cases current <;> simp_all [finish, Reader.text]

/-- **The reader follows the writer.** They count the same backslashes, so the reader
has each unit that the writer was given. -/
theorem read_pushUnits (text : Wide) (reader : Reader)
    (hplain : reader.inQuotes = false →
      space ∉ text ∧ tab ∉ text ∧ reader.text ++ text ≠ []) :
    let last := (pushUnits reader.inQuotes reader.slashes text).foldl Reader.read reader
    last.inQuotes = false ∧ last.finish = reader.arguments ++ [reader.text ++ text] := by
  induction text generalizing reader with
  | nil =>
    rw [pushUnits]
    split
    next hquotes =>
      have htwice : (reader.slashes + reader.slashes) % 2 = 0 := by omega
      have hhalf : (reader.slashes + reader.slashes) / 2 = reader.slashes := by omega
      rw [foldl_append, foldl_backslashes]
      simp [Reader.read, Reader.finish, backslash, quote, htwice, hhalf, Reader.text, hquotes]
    next hquotes =>
      rw [Bool.not_eq_true] at hquotes
      refine ⟨hquotes, ?_⟩
      rw [append_nil]
      exact Reader.finish_of_ne_nil (by simpa using (hplain hquotes).2.2)
  | cons unit text ih =>
    -- in each case the reader comes to a `next` that has the unit
    have hnext (next : Reader) (harguments : next.arguments = reader.arguments)
        (hquotes : next.inQuotes = reader.inQuotes) (htext : next.text = reader.text ++ [unit]) :
        let last := (pushUnits reader.inQuotes next.slashes text).foldl Reader.read next
        last.inQuotes = false ∧ last.finish = reader.arguments ++ [reader.text ++ unit :: text] := by
      have := ih next (by grind)
      simpa [hquotes, harguments, htext] using this
    rw [pushUnits]
    split_ifs with hslash hquote
    · rw [foldl_cons, Reader.read, if_pos hslash]
      exact hnext _ rfl rfl (by simp [Reader.text, hslash, replicate_succ'])
    · have hodd : (reader.slashes + (reader.slashes + 1)) % 2 = 1 := by omega
      have hhalf : (reader.slashes + (reader.slashes + 1)) / 2 = reader.slashes := by omega
      rw [foldl_append, foldl_backslashes, foldl_cons, Reader.read, if_neg hslash, if_pos hquote]
      simp only [hodd, hhalf]
      exact hnext _ rfl rfl (by simp [Reader.text, hquote])
    · have hblank : ¬(reader.inQuotes = false ∧ (unit = space ∨ unit = tab)) := by grind
      rw [foldl_cons, Reader.read, if_neg hslash, if_neg hquote, if_neg hblank]
      exact hnext _ rfl rfl (by simp [Reader.text])

/-- A unit below the surrogates is the unit of a character. -/
theorem mem_units {argument : List Char} {c : Char} (hc : c.toNat < 0xd800) :
    UInt16.ofNat c.toNat ∈ units argument ↔ c ∈ argument := by
  have hmem (d : Char) : UInt16.ofNat c.toNat ∈ encodeUtf16 d ↔ d = c := by
    have hd : d.toNat < 0x110000 :=
      d.valid.elim (fun h => Nat.lt_trans h (by decide)) And.right
    rw [← Char.toNat_inj]
    unfold encodeUtf16
    split_ifs <;> simp [← UInt16.toNat_inj] <;> omega
  simp [units, hmem]

theorem mem_pushUnits {quoted : Bool} {n : ℕ} {unit : UInt16} (h : unit ∈ pushUnits quoted n text) :
    unit = backslash ∨ unit = quote ∨ unit ∈ text := by
  fun_induction pushUnits quoted n text <;> grind

/-- Outside quotes the text is read as these arguments. -/
def ReadAs (text : Wide) (arguments : List Wide) : Prop :=
  0 ∉ text ∧ ∀ reader : Reader, reader.inQuotes = false →
    (text.foldl Reader.read reader).inQuotes = false ∧
      (text.foldl Reader.read reader).finish = reader.finish ++ arguments

theorem readAs_appendArgument {argument : List Char} (hnul : '\x00' ∉ argument) :
    ∃ pushed, appendArgument argument = .ok pushed ∧ ReadAs (space :: pushed) [units argument] := by
  have hzero : 0 ∉ units argument := mt (mem_units (c := '\x00') (by decide)).1 hnul
  have hunits (quoted) : 0 ∉ pushUnits quoted 0 (units argument) := fun h =>
    (mem_pushUnits h).elim nofun (·.elim nofun hzero)
  have hspace (reader : Reader) (h : reader.inQuotes = false) :
      reader.read space = ⟨reader.finish, false, 0, none⟩ := by
    simp [Reader.read, h, space, backslash, quote]
  rw [appendArgument, if_neg hnul]
  split_ifs with hquoted
  · refine ⟨_, rfl, by simpa [quote, space] using hunits true, fun reader h => ?_⟩
    have hopen : (Reader.mk reader.finish false 0 none).read quote =
        ⟨reader.finish, true, 0, some []⟩ := by simp [Reader.read, backslash, quote]
    rw [foldl_cons, hspace reader h, foldl_cons, hopen]
    exact read_pushUnits (units argument) ⟨reader.finish, true, 0, some []⟩ nofun
  · rw [not_or, not_or] at hquoted
    refine ⟨_, rfl, by simpa [space] using hunits false, fun reader h => ?_⟩
    rw [foldl_cons, hspace reader h]
    refine read_pushUnits (units argument) ⟨reader.finish, false, 0, none⟩ fun _ =>
      ⟨mt (mem_units (c := ' ') (by decide)).1 hquoted.2.1,
        mt (mem_units (c := '\t') (by decide)).1 hquoted.2.2, ?_⟩
    obtain ⟨c, rest, rfl⟩ := exists_cons_of_ne_nil hquoted.1
    have hone : encodeUtf16 c ≠ [] := by
      unfold encodeUtf16
      split_ifs <;> simp
    simp [units, hone]

theorem readAs_mapM {arguments : List (List Char)}
    (hnul : ∀ argument ∈ arguments, '\x00' ∉ argument) :
    ∃ pushed, arguments.mapM appendArgument = .ok pushed ∧
      ReadAs (pushed.flatMap (space :: ·)) (arguments.map units) := by
  induction arguments with
  | nil => exact ⟨[], rfl, by simp, by simp⟩
  | cons argument arguments ih =>
    obtain ⟨hfirst, hrest⟩ := forall_mem_cons.1 hnul
    obtain ⟨first, hok, hzero, hread⟩ := readAs_appendArgument hfirst
    obtain ⟨rest, hoks, hzeros, hreads⟩ := ih hrest
    refine ⟨first :: rest, by rw [mapM_cons, hok, hoks]; rfl, by simp_all, fun reader h => ?_⟩
    obtain ⟨hquotes, hfinish⟩ := hread reader h
    rw [flatMap_cons, foldl_append, (hreads _ hquotes).2, hfinish, append_assoc]
    exact ⟨(hreads _ hquotes).1, rfl⟩

/-- **What the process is started with is what it reads**, unless it is too long. -/
theorem split_makeCommandLine {executable : Wide} {arguments : List (List Char)}
    (hexecutable : executable ≠ [] ∧ 0 ∉ executable ∧ quote ∉ executable)
    (hnul : ∀ argument ∈ arguments, '\x00' ∉ argument) :
    ∃ line pushed, arguments.mapM appendArgument = .ok pushed ∧
      line = quote :: executable ++ quote :: pushed.flatMap (space :: ·) ++ [0] ∧
      split line = executable :: arguments.map units ∧
      makeCommandLine executable arguments =
        if 32767 ≤ line.length then
          .error ⟨.invalidInput, "managed process command line exceeds Windows limit"⟩
        else .ok line := by
  obtain ⟨hne, hzero, hquote⟩ := hexecutable
  obtain ⟨pushed, hok, hzeros, hread⟩ := readAs_mapM hnul
  refine ⟨_, pushed, hok, rfl, ?_, by
    rw [makeCommandLine, if_neg (by simp [hne, hzero, hquote]), hok]; rfl⟩
  have hbody : (quote :: executable ++ quote :: pushed.flatMap (space :: ·) ++ [0]).takeWhile
      (· ≠ 0) = quote :: executable ++ quote :: pushed.flatMap (space :: ·) := by
    have : quote ≠ 0 := by decide
    rw [takeWhile_append_of_pos (by grind)]
    simp
  have hname (unit) (h : unit ∈ executable) : decide (unit ≠ quote) = true := by grind
  rw [split, hbody]
  simp only [cons_append, drop_succ_cons, drop_zero, takeWhile_append_of_pos hname,
    dropWhile_append_of_pos hname]
  simpa using show _ = [] ++ _ from (hread .start rfl).2

theorem split_makeCommandLine_sample :
    ∃ line, makeCommandLine (units ['a']) [[], ['b', ' ', '\\']] = .ok line ∧
      split line = units ['a'] :: [[], ['b', ' ', '\\']].map units := by
  obtain ⟨line, pushed, hpushed, rfl, hsplit, hmake⟩ :=
    @split_makeCommandLine (units ['a']) [[], ['b', ' ', '\\']] (by decide) (by decide)
  cases hpushed
  exact ⟨_, hmake.trans (if_neg (by decide)), hsplit⟩

end Vole.Windows
