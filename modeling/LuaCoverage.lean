import LuaCoverage.Command.Line
import LuaCoverage.Main
import LuaCoverage.Proofs.Profile.Decoding
import LuaCoverage.Proofs.Profile.RoundTrip
import LuaCoverage.Proofs.Coverage.Credits
import LuaCoverage.Proofs.Coverage.Index
import LuaCoverage.Proofs.Coverage.Addition
import LuaCoverage.Proofs.Coverage.Run
import LuaCoverage.Proofs.Coverage.Gathering
import LuaCoverage.Proofs.Coverage.Figures
import LuaCoverage.Proofs.Coverage.Loading
import LuaCoverage.Proofs.Coverage.Truncation
import LuaCoverage.Proofs.Coverage.Concatenation
import LuaCoverage.Proofs.Coverage.Content
import LuaCoverage.Proofs.Coverage.Executions
import LuaCoverage.Proofs.Coverage.Rerecording
import LuaCoverage.Proofs.Report.Blocks
import LuaCoverage.Proofs.Report.Rerecording
import LuaCoverage.Proofs.Command.Request
import LuaCoverage.Proofs.Report.Selection
import LuaCoverage.Proofs.Report.Tracefile
import LuaCoverage.Proofs.Report.Json.Reading
import LuaCoverage.Proofs.Report.Json.Digest
import LuaCoverage.Proofs.Coverage.InPlace
import LuaCoverage.Proofs.Coverage.Retrying
import LuaCoverage.Proofs.Text.Numeral
import LuaCoverage.Proofs.Profile.Tag
import LuaCoverage.Proofs.Text.Ascii
import LuaCoverage.Proofs.Profile.Octets
import LuaCoverage.Proofs.Text.Width
import LuaCoverage.Proofs.Coverage.Percentages
import LuaCoverage.Proofs.FileSystem.Canonical
import LuaCoverage.Proofs.FileSystem.Sources
import LuaCoverage.Proofs.FileSystem.Beneath
import LuaCoverage.Proofs.Profile.Exhaustion
import LuaCoverage.Proofs.Command.Arguments
import LuaCoverage.Proofs.Coverage.Log
import LuaCoverage.Proofs.Lua.Statements
import LuaCoverage.Proofs.Report.Listing
import LuaCoverage.Proofs.Report.Columns
