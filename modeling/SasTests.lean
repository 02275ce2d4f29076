import SasTests.Freshness
import SasTests.RecvLoop
import SasTests.SystemParams
import SasTests.Correlation
import SasTests.CursorWait
import SasTests.PFOPClient
import SasTests.DatabaseIsolation
import SasTests.VerifyWorkmodeSync
import SasTests.PFOPFraming
import SasTests.PFOPLists
import SasTests.PFOPTests
import SasTests.CheckTorqueConstraints
import SasTests.Disconnect
import SasTests.MonitorCurveSamples
import SasTests.CurveAnalysis
import SasTests.CurveReport
import SasTests.Performance
import SasTests.ConstraintsMap
import SasTests.FactoryPayloads
import SasTests.ConstraintTorqueUnit
import SasTests.PfopEnv
import SasTests.BarcodeBindings
import SasTests.SystemParamLookup
import SasTests.ConstraintSearch
import SasTests.CursorScan
import SasTests.CursorAgree
import SasTests.Wakeups
import SasTests.Returns
import SasTests.OtherCalls
import SasTests.RequestAny
import SasTests.Registered
import SasTests.QueryDb
import SasTests.WireFormat
import SasTests.CsvRewrite
import SasTests.Endings
import SasTests.Peripherals
import SasTests.ConstraintPayloads
import SasTests.CompliancePayloads
import SasTests.Fixtures
import SasTests.EventAsserts
import SasTests.CursorClient
import SasTests.ComplianceMap
import SasTests.WaitUntilReady
