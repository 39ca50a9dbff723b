import Memcached.Thread.Lemmas.AsciiFraming

/-!
# Framing of ASCII storage commands

The data block of a storage command is the `n` bytes its line announces and CRLF. The bytes of the block should be used
up before the next line is looked for, whatever becomes of the command.
-/

namespace Memcached.Thread

open Transition

/-- The next line in the input buffer of `c` is a storage command whose key is not too long and whose numbers parse. -/
structure UpdateLine (w : World) (c : Conn) where
  command : List UInt8
  /-- The place after the newline. -/
  cont : Nat
  comm : Comm
  handle_cas : Bool
  vlen : Int32
  /-- The length of the data. -/
  n : Nat
  line : c.command_line w.stream = some (command, cont)
  update : update_command (tokenize_command command) = some (comm, handle_cas)
  key : ((tokenize_command command).getD 1 []).length ≤ KEY_MAX_LENGTH
  flags : (w.numbers.safe_strtoul ((tokenize_command command).getD 2 [])).isSome
  exptime : (w.numbers.safe_strtol ((tokenize_command command).getD 3 [])).isSome
  length : w.numbers.safe_strtol ((tokenize_command command).getD 4 []) = some vlen
  cas : handle_cas → (w.numbers.safe_strtoull ((tokenize_command command).getD 5 [])).isSome
  length_eq : vlen.toInt = n

namespace UpdateLine

variable {w : World} {c : Conn}

/-- No reply is wanted. -/
def noreply (l : UpdateLine w c) : Bool := (c.set_noreply_maybe (tokenize_command l.command)).noreply

theorem process_update_command_eq (l : UpdateLine w c) (a : Answers) :
    c.process_update_command w.numbers (tokenize_command l.command) l.comm l.handle_cas a =
      let c := c.set_noreply_maybe (tokenize_command l.command)
      if (l.n : Int) > INT_MAX - 2 then c.out_string
      else c.read_block ((tokenize_command l.command).getD 1 []).length (l.n + 2) l.comm a := by
  obtain ⟨flags, hflags⟩ := Option.isSome_iff_exists.mp l.flags
  obtain ⟨exptime, hexptime⟩ := Option.isSome_iff_exists.mp l.exptime
  have hcas : ¬ (l.handle_cas = true ∧ (w.numbers.safe_strtoull ((tokenize_command l.command).getD 5 [])).isNone = true) :=
    fun ⟨h, h'⟩ => Option.not_isSome_iff_eq_none.mpr (Option.isNone_iff_eq_none.mp h') (l.cas h)
  have hneg : ¬ (l.n : Int) < 0 := by omega
  simp only [Conn.process_update_command, if_neg (Nat.not_lt.mpr l.key), hflags, hexptime, l.length, if_neg hcas,
    l.length_eq, hneg, false_or]

/-- The block is owed unless it is too long, or there is no item and no reply. -/
theorem read_block_owes (nkey : Nat) (comm : Comm) {n : Nat} {a : Answers} (hp : c.protocol = .ascii_prot) :
    let c' := c.read_block nkey (n + 2) comm a
    c'.pos = c.pos ∧
      (a.item_alloc = none ∧ c.noreply ∧ c'.state = .conn_new_cmd ∨
        ¬ (a.item_alloc = none ∧ c.noreply) ∧ Conn.InBlock c.noreply c' ∧ c'.block_owed = n + 2) := by
  let c₁ := { c with value_allocs := (n + 2 : Int) :: c.value_allocs }
  have hout (b : Bool) : (if b then c₁.out_string else c₁.out_of_memory) = c₁.out_string := by
    simp [Conn.out_of_memory, c₁, hp]
  cases hit : a.item_alloc with
  | some chunked =>
      simp only [Conn.read_block, hit]
      exact ⟨trivial, .inr ⟨by simp, ⟨hp, .inl ⟨rfl, rfl⟩⟩, by simp only [Conn.block_owed]; omega⟩⟩
  | none =>
      have hread : c.read_block nkey (n + 2) comm a = { c₁.out_string with write_and_go := .conn_swallow, sbytes := n + 2 } := by
        rw [← hout (!a.item_size_ok)]
        simp only [Conn.read_block, hit, c₁]
      rw [hread]
      cases hnr : c.noreply with
      | true =>
          have h := Conn.out_string_noreply (c := c₁) hnr
          exact ⟨h.2, .inl ⟨rfl, rfl, h.1⟩⟩
      | false =>
          obtain ⟨hin, howed, hpos⟩ := Conn.out_string_swallow false (c := c₁) (n := n + 2) hp hnr rfl
          exact ⟨hpos, .inr ⟨by simp, hin, howed⟩⟩

theorem parsed (l : UpdateLine w c) {a : Answers} {c' : Conn} (hp : c.protocol = .ascii_prot)
    (h : c.try_read_command w a = some c') :
    c'.pos = l.cont ∧
      ((l.n : Int) > INT_MAX - 2 ∧ Conn.InBlock l.noreply c' ∧ c'.block_owed = 0 ∨
        (l.n : Int) ≤ INT_MAX - 2 ∧
          (a.item_alloc = none ∧ l.noreply ∧ c'.state = .conn_new_cmd ∨
            ¬ (a.item_alloc = none ∧ l.noreply) ∧ Conn.InBlock l.noreply c' ∧ c'.block_owed = l.n + 2)) := by
  unfold Conn.try_read_command at h
  simp only [hp, l.line, Conn.process_command, l.update, Option.map_some, Option.some.injEq,
    l.process_update_command_eq] at h
  have hp₀ : (c.set_noreply_maybe (tokenize_command l.command)).protocol = .ascii_prot := by
    unfold Conn.set_noreply_maybe
    split <;> exact hp
  subst h
  refine ⟨rfl, ?_⟩
  split_ifs with hlong
  · obtain ⟨hin, howed, -⟩ := Conn.out_string_paid l.noreply hp₀
    exact .inl ⟨hlong, ⟨hin.protocol, hin.state⟩, howed⟩
  · obtain ⟨-, h | ⟨h, hin, howed⟩⟩ := read_block_owes ((tokenize_command l.command).getD 1 []).length l.comm (n := l.n)
      (a := a) hp₀
    · exact .inr ⟨by omega, .inl h⟩
    · exact .inr ⟨by omega, .inr ⟨h, ⟨hin.protocol, hin.state⟩, howed⟩⟩

end UpdateLine

/-- From a storage command line on, the run `es` to `c` used up the line and its data block, and parsed nothing but the
line. -/
def FramedBlock (cont n : Nat) (es : List Event) (c : Conn) : Prop :=
  c.pos = cont + n + 2 ∧ ∀ a, .try_read_command a ∉ es.tail

/-- Whatever the outcome and however the input is split into reads, the data block is used up if and only if its length
is within bounds and no allocation failed while no reply was wanted. -/
theorem update_block_consumed (w : World) {es : List Event} {c c' : Conn} (hp : c.protocol = .ascii_prot)
    (hparse : c.state = .conn_parse_cmd) (l : UpdateLine w c) (hrun : Run (Step w) c es c')
    (hes : .reset_cmd_handler ∉ es) (hdone : c'.state = .conn_new_cmd) :
    FramedBlock l.cont l.n es c' ↔
      (l.n : Int) ≤ INT_MAX - 2 ∧ ¬ (l.noreply ∧ ∃ e ∈ es, e.alloc_fails) := by
  cases hrun with
  | nil => simp [hparse] at hdone
  | @cons _ c₁ _ e es hstep hrest =>
      replace hes := (not_or.mp (mt List.mem_cons.mpr hes)).2
      cases e <;> simp only [Step, Conn.drive_machine, hparse, reduceCtorEq] at hstep
      next a =>
      have hfails : (∃ e ∈ .try_read_command a :: es, e.alloc_fails) ↔ a.item_alloc = none ∨ ∃ e ∈ es, e.alloc_fails := by
        simp [Event.alloc_fails]
      rw [hfails, FramedBlock, List.tail_cons]
      obtain ⟨hpos, ⟨hlong, hin, howed⟩ | ⟨hshort, ⟨hit, hnr, hst⟩ | ⟨hgrant, hin, howed⟩⟩⟩ := l.parsed hp hstep
      · obtain ⟨-, hle, -⟩ := Conn.run_pays hrest hin hes hdone
        exact iff_of_false (fun h => by omega) fun h => by omega
      · obtain ⟨rfl, rfl⟩ := Conn.run_stops hrest (.inl hst) hes
        exact iff_of_false (fun h => by omega) fun h => h.2 ⟨hnr, .inl hit⟩
      · obtain ⟨hiff, -, hparses⟩ := Conn.run_pays hrest hin hes hdone
        rw [hpos, howed, ← Nat.add_assoc] at hiff
        rw [hiff]
        grind

/-! ## A command without a reply -/

/-- A number of decimal digits, as `strtol` reads it. -/
def decimal (s : List UInt8) : Option Nat :=
  if s ≠ [] ∧ s.all (fun b => 48 ≤ b ∧ b ≤ 57) then some (s.foldl (fun n b => n * 10 + (b.toNat - 48)) 0) else none

/-- A stream that begins with `line` and then has zeros. -/
def one_command (line : String) : World where
  stream := fun i => (c_string line).getD i 0
  settings := { sasl := false, flush_enabled := true }
  numbers :=
    { safe_strtoul := fun s => (decimal s).map UInt32.ofNat
      safe_strtol := fun s => (decimal s).map Int32.ofNat
      safe_strtoull := fun s => (decimal s).map UInt64.ofNat }

/-- A connection with 64 bytes of a storage command in its buffer. -/
def ascii_conn : Conn := { Conn.binary_conn with protocol := .ascii_prot, state := .conn_parse_cmd, rbytes := 64 }

def set_noreply : World := one_command "set a 0 0 1 noreply\r\nx\r\n"

def set_noreply_line : UpdateLine set_noreply ascii_conn where
  command := c_string "set a 0 0 1 noreply"
  cont := 21
  comm := .NREAD_SET
  handle_cas := false
  vlen := 1
  n := 1
  line := by decide +kernel
  update := by decide +kernel
  key := by decide +kernel
  flags := by decide +kernel
  exptime := by decide +kernel
  length := by decide +kernel
  cas := nofun
  length_eq := by decide +kernel

/-- There is no item and no reply: the data block is taken for the next command line. -/
theorem update_block_misframed :
    let es := [.try_read_command { Answers.good with item_alloc := none }]
    let c := ascii_conn.after set_noreply es
    Run (Step set_noreply) ascii_conn es c ∧ c.state = .conn_new_cmd ∧
      ¬ FramedBlock set_noreply_line.cont set_noreply_line.n es c :=
  ⟨Conn.after_run (by decide +kernel), by decide +kernel, fun h => absurd h.1 (by decide +kernel)⟩

theorem update_block_consumed_witness :
    let es := [.try_read_command .good, .leftovers, .complete_nread .good]
    FramedBlock set_noreply_line.cont set_noreply_line.n es (ascii_conn.after set_noreply es) ↔
      (set_noreply_line.n : Int) ≤ INT_MAX - 2 ∧ ¬ (set_noreply_line.noreply ∧ ∃ e ∈ es, e.alloc_fails) :=
  update_block_consumed _ rfl rfl set_noreply_line (Conn.after_run (by decide +kernel)) (by decide) (by decide +kernel)

end Memcached.Thread
