import GameSetup.CommandLine.Basic
import GameSetup.CommandLine.Refusal
import GameSetup.CommandLine.Side
import GameSetup.CommandLine.Syntax
import GameSetup.Conf.Event
import GameSetup.Conf.Journal
import GameSetup.Conf.Line
import GameSetup.Conf.Reader
import GameSetup.Fault
import GameSetup.Input.Bindings
import GameSetup.Input.Definition
import GameSetup.Input.Device
import GameSetup.Input.KeyName
import GameSetup.Input.Keys
import GameSetup.Input.Notice
import GameSetup.Input.Scancode
import GameSetup.Input.Tables
import GameSetup.Keyed
import GameSetup.Numeral.Decimal
import GameSetup.Numeral.Digits
import GameSetup.Numeral.Radix
import GameSetup.Program.Basic
import GameSetup.Program.Report
import GameSetup.Registry.Basic
import GameSetup.Registry.Catalog
import GameSetup.Registry.Defaults
import GameSetup.Registry.Notice
import GameSetup.Registry.Store
import GameSetup.Setting.Any
import GameSetup.Setting.Basic
import GameSetup.Setting.Resolution
import GameSetup.Setting.Value
import GameSetup.Setting.WindowMode
import GameSetup.Settings.Basic
import GameSetup.Settings.Bundle
import GameSetup.Settings.Flags
import GameSetup.Severity
import GameSetup.Storage.ConfigFile
import GameSetup.Storage.Disk
import GameSetup.Storage.Path
import GameSetup.Storage.SaveDirectory
import GameSetup.Storage.Script
import GameSetup.Storage.Tree
import GameSetup.Storage.Writer
import GameSetup.Text.Alphabetic
import GameSetup.Text.Blank
import GameSetup.Text.JsonString
import GameSetup.Text.Quoted
import GameSetup.Text.Utf8
import GameSetup.Main
import GameSetup.Proofs.Conf.Grammar
import GameSetup.Proofs.Conf.LineReading
import GameSetup.Proofs.Conf.Reading
import GameSetup.Proofs.Text.Utf8
import GameSetup.Proofs.Conf.Lines
import GameSetup.Proofs.Conf.Interruption
import GameSetup.Proofs.Conf.Offsets
import GameSetup.Proofs.Conf.Brackets
import GameSetup.Proofs.Conf.Shapes
import GameSetup.Proofs.Conf.Rendering
import GameSetup.Proofs.Conf.Repair
import GameSetup.Proofs.Conf.Plain
import GameSetup.Proofs.Numeral.Decimal
import GameSetup.Proofs.Numeral.Leading
import GameSetup.Proofs.Setting.Number
import GameSetup.Proofs.Setting.Resolution
import GameSetup.Proofs.Setting.RoundTrip
import GameSetup.Proofs.Registry.Lawful
import GameSetup.Proofs.Registry.Defaults
import GameSetup.Proofs.Input.BindingMap
import GameSetup.Proofs.Input.Refinement
import GameSetup.Proofs.Input.Numbering
import GameSetup.Proofs.Input.Trace
import GameSetup.Proofs.Input.Lifetimes
import GameSetup.Proofs.Program.Precedence
import GameSetup.Proofs.Registry.Agreement
import GameSetup.Proofs.Registry.History
import GameSetup.Proofs.Registry.Warnings
import GameSetup.Proofs.Settings.History
import GameSetup.Proofs.Settings.Isolation
import GameSetup.Proofs.Settings.Flat
import GameSetup.Proofs.Storage.Disk
import GameSetup.Proofs.Storage.Mishaps
import GameSetup.Proofs.Storage.Writing
import GameSetup.Proofs.Storage.Loading
import GameSetup.Proofs.CommandLine.Exclusion
import GameSetup.Proofs.CommandLine.Position
import GameSetup.Proofs.Program.GameSize
import GameSetup.Proofs.Program.Datadir
import GameSetup.Proofs.Registry.Calls
import GameSetup.Proofs.Numeral.Radix
import GameSetup.Proofs.Input.Grammar
import GameSetup.Proofs.Input.Agreement
import GameSetup.Proofs.Setting.History
import GameSetup.Proofs.Input.Rebinding
import GameSetup.Proofs.Input.Describe
import GameSetup.Proofs.Input.Batches
import GameSetup.Proofs.Input.Sliced
