import MxlUtils.Lib.Prog
import MxlUtils.Lib.Fallible
import MxlUtils.Lib.Lock
import MxlUtils.Lib.Bits
import MxlUtils.Lib.Wp
import MxlUtils.Gphy.Device
import MxlUtils.Gphy.Mbox.Access
import MxlUtils.Gphy.Mbox.Device
import MxlUtils.Gphy.Mbox.Protocol
import MxlUtils.Gphy.Mbox.Sessions
import MxlUtils.Gphy.Mbox.Istat
import MxlUtils.Gphy.Msec.Types
import MxlUtils.Gphy.Msec.Layout
import MxlUtils.Gphy.Msec.TransformRecord
import MxlUtils.Gphy.Msec.SamRule
import MxlUtils.Gphy.Chip
import MxlUtils.Gphy.Msec.SamControl
import MxlUtils.Gphy.Fw
import MxlUtils.Gphy.Ptp.AuxFifo
import MxlUtils.Gphy.LockDiscipline
import MxlUtils.Gphy.Msec.Addressing
import MxlUtils.Gphy.Msec.Windows
import MxlUtils.Gphy.Msec.TableWrite
import MxlUtils.Gphy.Msec.PacketNumber
import MxlUtils.Gphy.Msec.Content
import MxlUtils.Gphy.Msec.EngineConfig
import MxlUtils.Gphy.Link
import MxlUtils.Gphy.Msec.EngineInit
import MxlUtils.Gphy.Ptp.Control
import MxlUtils.Gphy.NestedLocks
import MxlUtils.Gphy.Renegotiation
import MxlUtils.Gphy.Status
import MxlUtils.Gphy.Sgmii.Control
import MxlUtils.Gphy.Sgmii.RoundTrip
import MxlUtils.Gphy.Sgmii.Restart
import MxlUtils.Gphy.ForcedSpeed
import MxlUtils.Gphy.Init
import MxlUtils.Gphy.AutonegShadow
import MxlUtils.Lib.Rounding
import MxlUtils.Lib.History
import MxlUtils.Gphy.Ptp.Frequency
import MxlUtils.Gphy.Ptp.Rate
import MxlUtils.Gphy.Ptp.Time
import MxlUtils.Gphy.Ptp.RoundTrip
import MxlUtils.Gphy.Ptp.Pps
import MxlUtils.Gphy.Msec.Bypass
import MxlUtils.Gphy.Msec.SamCodec
import MxlUtils.Gphy.WakeOnLan
import MxlUtils.Gphy.UltraLowPower
import MxlUtils.Gphy.SyncE
import MxlUtils.Gphy.Usxgmii.Window
import MxlUtils.Gphy.Usxgmii.Control
import MxlUtils.Gphy.Usxgmii.RoundTrip
import MxlUtils.Gphy.Pause
import MxlUtils.Gphy.Gpio.Configuration
import MxlUtils.Gphy.Shared.Init
import MxlUtils.Gphy.Shared.Transparency
import MxlUtils.Lib.Padding
import MxlUtils.Utility.FastWrite
import MxlUtils.Utility.Delivery
import MxlUtils.Lib.Annex22
import MxlUtils.Utility.Mdio
import MxlUtils.Driver.Gennl
import MxlUtils.Driver.RxScList
import MxlUtils.Driver.RxScCommands
import MxlUtils.Driver.RxScSearch
import MxlUtils.Lib.Execution
import MxlUtils.Driver.RxScCount
import MxlUtils.Driver.AddSa
import MxlUtils.Lib.Shell
import MxlUtils.Upgrade.VolMgmt
import MxlUtils.Upgrade.Reporting
import MxlUtils.Upgrade.DualBank
import MxlUtils.Lib.CString
import MxlUtils.Lib.Getopt
import MxlUtils.Seccrypto.Client
import MxlUtils.Seccrypto.KeyParsers
import MxlUtils.Seccrypto.Sources
import MxlUtils.Seccrypto.Coherent
import MxlUtils.Seccrypto.SignOptions
import MxlUtils.Seccrypto.VerifyFile
import MxlUtils.Seccrypto.Main
import MxlUtils.Seccrypto.Isolation
import MxlUtils.Seccrypto.Bounds
import MxlUtils.CapProvide.Main
import MxlUtils.CapProvide.Names
import MxlUtils.CapProvide.Grant
import MxlUtils.Lib.Window
import MxlUtils.Memutil.Main
import MxlUtils.Memutil.Access
import MxlUtils.Memutil.Safety
import MxlUtils.Memutil.Layouts
import MxlUtils.Lib.ShellText
import MxlUtils.Upgrade.WmdCtrl
import MxlUtils.Upgrade.WmdConf
import MxlUtils.Upgrade.WmdExact
import MxlUtils.Upgrade.WmdBlock
import MxlUtils.Upgrade.WmdRuns
import MxlUtils.Lib.Leads
import MxlUtils.Upgrade.VolNode
import MxlUtils.Upgrade.VolNodeExact
import MxlUtils.Upgrade.VolNodeSound
import MxlUtils.Gphy.Ptp.Written
import MxlUtils.Gphy.Ptp.Adjtime
import MxlUtils.Gphy.Msec.PsaStats
import MxlUtils.Gphy.Msec.SamFca
import MxlUtils.Gphy.Msec.SaNonMatch
import MxlUtils.Gphy.Msec.Thresholds
import MxlUtils.Gphy.Msec.CcRule
import MxlUtils.Gphy.Msec.CpRule
import MxlUtils.Gphy.Msec.Bitmap
import MxlUtils.Gphy.Msec.EngineGate
import MxlUtils.Gphy.Msec.Relevance
import MxlUtils.Gphy.Ptp.FifoReset
import MxlUtils.Gphy.Ptp.Timestamps
import MxlUtils.Gphy.Cdiag
import MxlUtils.Gphy.FwHandshake
import MxlUtils.Gphy.TopInterrupts
import MxlUtils.Gphy.Sgmii.CopperLink
import MxlUtils.CapProvide.ListMatch
import MxlUtils.Seccrypto.Stream
import MxlUtils.Gphy.Ptp.Settime
import MxlUtils.Lib.Heap
import MxlUtils.Seccrypto.RsaBlob
import MxlUtils.Gphy.Ptp.BusyWait
import MxlUtils.Gphy.Msec.Waits
import MxlUtils.Lib.Decimal
import MxlUtils.Sgam.Rates
import MxlUtils.Sgam.Commands
import MxlUtils.Sgam.OptionTable
import MxlUtils.Sgam.AddMeter
import MxlUtils.Lib.Tokens
import MxlUtils.Utility.SplitBuffer
import MxlUtils.Lib.Numeral
import MxlUtils.Utility.ScanParam
import MxlUtils.Lib.Directory
import MxlUtils.Upgrade.Calibration
import MxlUtils.Lib.Carry
import MxlUtils.Power.PcieGen4
import MxlUtils.Power.Detect
import MxlUtils.Gphy.Advertisement
import MxlUtils.Gphy.Msec.ConcurrentRecords
import MxlUtils.Gphy.StandardStatus
import MxlUtils.Gphy.Msec.SaUpdate
import MxlUtils.Gphy.Ptp.PpsRuns
import MxlUtils.Vendor.HashKey
import MxlUtils.Gphy.Led
